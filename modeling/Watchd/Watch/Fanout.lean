import Watchd.Lib.Grouping
import Watchd.Lib.Loops
import Watchd.Watch.Ending

/-!
# Fan-out

`Accept` routes each change through the index into per-scope deliveries, found
by a scan while they are few and by hashing once they are many.  The scratch
space represents the changes grouped by route and scope (`Scratch.Holds`), and a
route's group is what the plain filter `Projection.changes` gives its watchers
(`valuesOf_pairs`).
-/

namespace Watchd.Watch

open Watchd.Cdc Watchd.Lib

/-! ## Finding a delivery -/

/-- The scratch space holds these groups, with the watchers `W` assigns to their keys. -/
structure Scratch.Holds (s : Scratch) (W : DeliveryKey → List WatcherId)
    (gs : List (DeliveryKey × List Change)) : Prop where
  keys : s.deliveryKeys = gs.map Prod.fst
  deliveries : s.deliveries = gs.map fun g => ⟨W g.1, g.2⟩
  nodup : (gs.map Prod.fst).Nodup
  index_few : gs.length ≤ indexedDeliveries → s.deliveryIndex = ∅
  index_many : indexedDeliveries < gs.length → ∀ k i,
    s.deliveryIndex.lookup k = some i ↔ (gs.map Prod.fst)[i]? = some k

/-- Positions in a list without repetitions are determined by what stands there. -/
theorem getElem?_unique {α : Type*} {l : List α} (hnd : l.Nodup) {i j : Nat} {a : α}
    (hi : l[i]? = some a) (hj : l[j]? = some a) : i = j := by
  have hlt : i < l.length := (List.getElem?_eq_some_iff.1 hi).1
  exact (List.getElem?_inj hlt hnd).1 (hi.trans hj.symm)

namespace Scratch.Holds

variable {s : Scratch} {W : DeliveryKey → List WatcherId} {gs : List (DeliveryKey × List Change)}

theorem empty (W : DeliveryKey → List WatcherId) : Scratch.Holds {} W [] := by
  refine ⟨rfl, rfl, List.nodup_nil, fun _ => rfl, ?_⟩
  intro h
  simp at h

/-- The scan and the index find the same thing: the position of the key. -/
theorem find_eq_some_iff (h : s.Holds W gs) {key : DeliveryKey} {i : Nat} :
    s.find key = some i ↔ (gs.map Prod.fst)[i]? = some key := by
  unfold Scratch.find
  rw [h.keys]
  split
  · constructor
    · intro hf
      simpa using List.find?_some hf
    · intro hi
      have hlt : i < (gs.map Prod.fst).length := (List.getElem?_eq_some_iff.1 hi).1
      cases hf : (List.range (gs.map Prod.fst).length).reverse.find?
          fun i => (gs.map Prod.fst)[i]? = some key with
      | none =>
        rw [List.find?_eq_none] at hf
        exact absurd (by simpa using hi) (hf i (by simpa using hlt))
      | some j =>
        have hj : (gs.map Prod.fst)[j]? = some key := by simpa using List.find?_some hf
        rw [getElem?_unique h.nodup hi hj]
  · next hlen =>
    rw [List.length_map, Nat.not_le] at hlen
    exact h.index_many hlen key i

theorem find_eq_none_iff (h : s.Holds W gs) {key : DeliveryKey} :
    s.find key = none ↔ key ∉ gs.map Prod.fst := by
  rw [Option.eq_none_iff_forall_ne_some, List.mem_iff_getElem?, not_exists]
  exact forall_congr' fun i => not_congr h.find_eq_some_iff

/-- The index after a key has been appended. -/
theorem reindex (h : s.Holds W gs) {key : DeliveryKey} (hkey : key ∉ gs.map Prod.fst) :
    let keys := gs.map Prod.fst ++ [key]
    let index := Scratch.reindex s.deliveryIndex keys key
    (gs.length + 1 ≤ indexedDeliveries → index = ∅) ∧
    (indexedDeliveries < gs.length + 1 → ∀ k i, index.lookup k = some i ↔ keys[i]? = some k) := by
  have hlen : (gs.map Prod.fst ++ [key]).length = gs.length + 1 := by simp
  have hnd : (gs.map Prod.fst ++ [key]).Nodup := by
    refine h.nodup.append (by simp) ?_
    intro x hx hx'
    rw [List.mem_singleton] at hx'
    exact hkey (hx' ▸ hx)
  simp only [Scratch.reindex, hlen]
  constructor
  · intro hfew
    rw [if_neg (by omega), if_neg (by omega)]
    exact h.index_few (by omega)
  · intro hmany k i
    split
    · -- the index is filled for the first time
      have hempty := h.index_few (by omega)
      rw [hempty]
      have hkeys : ((gs.map Prod.fst ++ [key]).zipIdx.map Prod.fst).Nodup := by
        rwa [List.zipIdx_map_fst]
      exact (lookup_fill_empty hkeys k i).trans List.mem_zipIdx_iff_getElem?
    · next hne =>
      rw [if_pos (by omega)]
      have hold := h.index_many (by omega)
      by_cases he : k = key
      · subst he
        have hlast : (gs.map Prod.fst ++ [k])[gs.length]? = some k := by simp
        rw [Finmap.lookup_insert, Option.some.injEq, Nat.add_sub_cancel]
        exact ⟨fun e => e ▸ hlast, fun hi => getElem?_unique hnd hlast hi⟩
      · rw [Finmap.lookup_insert_of_ne _ he, hold]
        constructor
        · intro hi
          rw [List.getElem?_append_left (List.getElem?_eq_some_iff.1 hi).1]
          exact hi
        · intro hi
          by_cases hlt : i < (gs.map Prod.fst).length
          · rw [← List.getElem?_append_left hlt]
            exact hi
          · rw [List.getElem?_append_right (Nat.not_lt.1 hlt)] at hi
            have hmem := List.mem_of_getElem? hi
            rw [List.mem_singleton] at hmem
            exact absurd hmem he

/-- Adding a change to a delivery adds it to its key's group. -/
theorem addChange (h : s.Holds W gs) (key : DeliveryKey) (c : Change) :
    (s.addChange key (W key) c).Holds W (addTo key c gs) := by
  unfold Scratch.addChange Scratch.deliveryLocked
  cases hf : s.find key with
  | some i =>
    have hi := h.find_eq_some_iff.1 hf
    have hmem : key ∈ gs.map Prod.fst := List.mem_of_getElem? hi
    have hkeys := keys_addTo_of_mem (v := c) hmem
    have hlen : (addTo key c gs).length = gs.length := by
      simpa using congrArg List.length hkeys
    refine ⟨by rw [hkeys]; exact h.keys, ?_, by rw [hkeys]; exact h.nodup,
      by rw [hlen]; exact h.index_few, by rw [hlen, hkeys]; exact h.index_many⟩
    rw [addTo_eq_modify h.nodup hi]
    simp only [h.deliveries]
    apply List.ext_getElem?
    intro j
    simp only [List.getElem?_modify, List.getElem?_map]
    by_cases hj : i = j <;> cases gs[j]? <;> simp [hj]
  | none =>
    have hkey := h.find_eq_none_iff.1 hf
    have hadd := addTo_of_not_mem (v := c) hkey
    obtain ⟨hfew, hmany⟩ := h.reindex hkey
    refine ⟨?_, ?_, keys_addTo_nodup h.nodup, ?_, ?_⟩
    · rw [hadd]
      simp [h.keys]
    · rw [hadd]
      apply List.ext_getElem?
      intro j
      simp only [h.deliveries, List.getElem?_modify, List.getElem?_map, List.getElem?_append,
        List.length_map]
      rcases Nat.lt_trichotomy j gs.length with hj | hj | hj
      · simp [hj, Nat.ne_of_gt hj]
      · simp [hj]
      · have hj' : 1 ≤ j - gs.length := by omega
        simp [Nat.lt_asymm hj, List.getElem?_eq_none, hj']
    · rw [hadd, List.length_append, List.length_singleton, h.keys]
      exact hfew
    · rw [hadd, List.length_append, List.length_singleton, h.keys, List.map_append]
      exact hmany

end Scratch.Holds

/-! ## Routing the changes -/

namespace Registry

/-- The deliveries a change joins, with the change. -/
def routed (r : Registry) (c : Change) : List (DeliveryKey × Change) :=
  (r.routesOf c.table).zipIdx.filterMap fun ri =>
    if (ri.1.at (c.keyAt ri.1.scopeColumn)).length = 0 then none
    else some (⟨⟨c.table, ri.2⟩, c.keyAt ri.1.scopeColumn⟩, c)

/-- The watchers of a delivery. -/
def watchersAt (r : Registry) (key : DeliveryKey) : List WatcherId :=
  ((r.routesOf key.route.table)[key.route.index]?.map (·.at key.scope)).getD []

theorem mem_watchersAt {r : Registry} {key : DeliveryKey} {w : WatcherId} :
    w ∈ r.watchersAt key ↔ ∃ route, (r.routesOf key.route.table)[key.route.index]? = some route ∧
      w ∈ route.at key.scope := by
  unfold watchersAt
  cases (r.routesOf key.route.table)[key.route.index]? <;> simp

end Registry

namespace Scratch.Holds

variable {r : Registry} {s : Scratch}

theorem routeChange {l : List (DeliveryKey × Change)} (h : s.Holds r.watchersAt (group l))
    (c : Change) : (Scratch.routeChange r s c).Holds r.watchersAt (group (l ++ r.routed c)) := by
  unfold Scratch.routeChange Registry.routed
  have hroutes : ∀ ri ∈ (r.routesOf c.table).zipIdx, (r.routesOf c.table)[ri.2]? = some ri.1 :=
    fun ri hri => List.mem_zipIdx_iff_getElem?.1 hri
  generalize (r.routesOf c.table).zipIdx = ris at hroutes ⊢
  induction ris generalizing s l with
  | nil => simpa using h
  | cons ri ris ih =>
    rw [List.foldl_cons, List.filterMap_cons]
    have htail := fun ri' hri' => hroutes ri' (List.mem_cons_of_mem _ hri')
    by_cases hlen : (ri.1.at (c.keyAt ri.1.scopeColumn)).length = 0
    · simp only [hlen, if_true]
      exact ih h htail
    · simp only [hlen, if_false]
      have hat : r.watchersAt ⟨⟨c.table, ri.2⟩, c.keyAt ri.1.scopeColumn⟩ =
          ri.1.at (c.keyAt ri.1.scopeColumn) := by
        simp [Registry.watchersAt, hroutes ri List.mem_cons_self]
      have hadd := h.addChange ⟨⟨c.table, ri.2⟩, c.keyAt ri.1.scopeColumn⟩ c
      rw [hat, ← group_append_singleton] at hadd
      have hrest := ih hadd htail
      rwa [List.append_assoc, List.singleton_append] at hrest

/-- Routing a transaction groups its changes by route and scope. -/
theorem collect (r : Registry) (t : Transaction) :
    (Scratch.collect r {} t).Holds r.watchersAt (group (t.changes.flatMap r.routed)) := by
  unfold Scratch.collect
  suffices hall : ∀ (cs : List Change) (s : Scratch) (l : List (DeliveryKey × Change)),
      s.Holds r.watchersAt (group l) →
      (cs.foldl (Scratch.routeChange r) s).Holds r.watchersAt
        (group (l ++ cs.flatMap r.routed)) by
    simpa using hall t.changes {} [] (empty _)
  intro cs
  induction cs with
  | nil =>
    intro s l h
    simpa using h
  | cons c cs ih =>
    intro s l h
    rw [List.foldl_cons, List.flatMap_cons, ← List.append_assoc]
    exact ih _ _ (h.routeChange c)

end Scratch.Holds

/-! ## What a watcher is given -/

theorem valuesOf_zipIdx_lt (c : Change) (scope : Text) {i n : Nat} (hin : i < n)
    (routes : List Route) :
    valuesOf ⟨⟨c.table, i⟩, scope⟩ ((routes.zipIdx n).filterMap fun ri =>
      if (ri.1.at (c.keyAt ri.1.scopeColumn)).length = 0 then none
      else some ((⟨⟨c.table, ri.2⟩, c.keyAt ri.1.scopeColumn⟩ : DeliveryKey), c)) = [] := by
  unfold valuesOf
  rw [List.map_eq_nil_iff, List.filter_eq_nil_iff]
  intro kv hkv
  obtain ⟨ri, hri, hsome⟩ := List.mem_filterMap.1 hkv
  have hle := List.le_snd_of_mem_zipIdx hri
  split at hsome
  · cases hsome
  · rw [← Option.some.inj hsome]
    simp only [decide_eq_true_eq, DeliveryKey.mk.injEq, RouteRef.mk.injEq, true_and]
    omega

/-- A change is in the delivery of a route and a scope with watchers iff it has that scope. -/
theorem valuesOf_routed {r : Registry} {c : Change} {scope : Text} {i : Nat} {route : Route}
    (hi : (r.routesOf c.table)[i]? = some route) (hat : route.at scope ≠ []) :
    valuesOf ⟨⟨c.table, i⟩, scope⟩ (r.routed c) =
      if c.keyAt route.scopeColumn = scope then [c] else [] := by
  unfold Registry.routed
  suffices hall : ∀ (routes : List Route) (n j : Nat), routes[j]? = some route →
      valuesOf ⟨⟨c.table, n + j⟩, scope⟩ ((routes.zipIdx n).filterMap fun ri =>
        if (ri.1.at (c.keyAt ri.1.scopeColumn)).length = 0 then none
        else some ((⟨⟨c.table, ri.2⟩, c.keyAt ri.1.scopeColumn⟩ : DeliveryKey), c)) =
      if c.keyAt route.scopeColumn = scope then [c] else [] by
    simpa using hall _ 0 i hi
  intro routes
  induction routes with
  | nil => simp
  | cons route₀ routes ih =>
    intro n j hj
    rw [List.zipIdx_cons, List.filterMap_cons]
    cases j with
    | zero =>
      -- the route itself: none of the later ones has its position
      have hroute : route₀ = route := by simpa using hj
      subst hroute
      have hrest := valuesOf_zipIdx_lt c scope (Nat.lt_succ_self n) routes
      by_cases hs : c.keyAt route₀.scopeColumn = scope
      · have hlen : (route₀.at scope).length ≠ 0 := fun e => hat (List.length_eq_zero_iff.1 e)
        simp only [hs, hlen, if_false, if_true]
        rw [← List.singleton_append, valuesOf_append, Nat.add_zero, hrest]
        simp [valuesOf]
      · rw [if_neg hs]
        by_cases hlen : (route₀.at (c.keyAt route₀.scopeColumn)).length = 0
        · simp only [hlen, if_true]
          exact hrest
        · simp only [hlen, if_false]
          rw [← List.singleton_append, valuesOf_append, Nat.add_zero, hrest]
          simp [valuesOf, hs]
    | succ j =>
      have hnext := ih (n + 1) j (by simpa using hj)
      rw [show n + 1 + j = n + (j + 1) by omega] at hnext
      by_cases hlen : (route₀.at (c.keyAt route₀.scopeColumn)).length = 0
      · simp only [hlen, if_true]
        exact hnext
      · simp only [hlen, if_false]
        rw [← List.singleton_append, valuesOf_append, hnext]
        simp [valuesOf]

theorem valuesOf_routed_of_ne {r : Registry} {c : Change} {key : DeliveryKey}
    (h : c.table ≠ key.route.table) : valuesOf key (r.routed c) = [] := by
  unfold valuesOf Registry.routed
  rw [List.map_eq_nil_iff, List.filter_eq_nil_iff]
  intro kv hkv
  obtain ⟨ri, -, hsome⟩ := List.mem_filterMap.1 hkv
  split at hsome
  · cases hsome
  · rw [← Option.some.inj hsome]
    simp only [decide_eq_true_eq]
    rintro rfl
    exact h rfl

/-- The delivery of a route and a scope with watchers holds the transaction's changes of that
table and scope. -/
theorem valuesOf_collected {r : Registry} {key : DeliveryKey} {route : Route}
    (hroute : (r.routesOf key.route.table)[key.route.index]? = some route)
    (hat : route.at key.scope ≠ []) (cs : List Change) :
    valuesOf key (cs.flatMap r.routed) =
      cs.filter fun c => c.table = key.route.table ∧ c.keyAt route.scopeColumn = key.scope := by
  induction cs with
  | nil => rfl
  | cons c cs ih =>
    rw [List.flatMap_cons, valuesOf_append, ih]
    by_cases ht : c.table = key.route.table
    · obtain ⟨⟨table, i⟩, scope⟩ := key
      simp only at ht hroute hat
      subst ht
      rw [valuesOf_routed hroute hat]
      by_cases hs : c.keyAt route.scopeColumn = scope <;> simp [hs]
    · rw [valuesOf_routed_of_ne ht]
      simp [ht]

namespace Indexed

variable {r : Registry}

theorem column_of_getElem? (h : Indexed r) {table : String} {i : Nat} {route : Route}
    (hi : (r.routesOf table)[i]? = some route) : r.column table route.scopeColumn = route :=
  columnOf_of_mem (h.columns_nodup table) (List.mem_of_getElem? hi)

/-- Only registered watchers are in a delivery. -/
theorem mem_watchers_of_watchersAt (h : Indexed r) {key : DeliveryKey} {w : WatcherId}
    (hw : w ∈ r.watchersAt key) : w ∈ r.watchers := by
  obtain ⟨route, hi, hat⟩ := Registry.mem_watchersAt.1 hw
  rw [← h.column_of_getElem? hi, h.mem_column] at hat
  exact hat.1

theorem watchersAt_nodup (h : Indexed r) (key : DeliveryKey) : (r.watchersAt key).Nodup := by
  unfold Registry.watchersAt
  cases hi : (r.routesOf key.route.table)[key.route.index]? with
  | none => simp
  | some route =>
    have hnd := h.column_nodup key.route.table route.scopeColumn key.scope
    rw [h.column_of_getElem? hi] at hnd
    exact hnd

/-- A registered watcher belongs to one delivery, and that delivery holds its changes. -/
theorem exists_key (h : Indexed r) {w : WatcherId} (hw : w ∈ r.watchers) :
    ∃ key, w ∈ r.watchersAt key ∧ (∀ key', w ∈ r.watchersAt key' → key' = key) ∧
      ∀ t : Transaction, valuesOf key (t.changes.flatMap r.routed) = (r.cell w).changesOf t := by
  set c := r.cell w with hc
  have hmem : w ∈ (r.column c.projection.table c.projection.spec.scopeColumn).at c.scope :=
    (h.mem_column _ _ _ _).2 ⟨hw, rfl, rfl, rfl⟩
  obtain ⟨i, hi⟩ := List.mem_iff_getElem?.1 (mem_of_columnOf_at hmem)
  refine ⟨⟨⟨c.projection.table, i⟩, c.scope⟩, Registry.mem_watchersAt.2 ⟨_, hi, hmem⟩, ?_, ?_⟩
  · rintro ⟨⟨table', i'⟩, scope'⟩ hw'
    obtain ⟨route', hi', hat'⟩ := Registry.mem_watchersAt.1 hw'
    have hby : c.RoutedBy table' route'.scopeColumn scope' := by
      rw [← h.column_of_getElem? hi', h.mem_column] at hat'
      exact hat'.2
    obtain ⟨rfl, hcol, rfl⟩ := hby
    -- two routes of one table with one column are the same route
    have hpos : i' = i := by
      refine getElem?_unique (h.columns_nodup c.projection.table)
        (a := c.projection.spec.scopeColumn) ?_ ?_
      · rw [List.getElem?_map, hi', Option.map_some, hcol]
      · rw [List.getElem?_map, hi, Option.map_some, columnOf_scopeColumn]
    rw [hpos]
  · intro t
    rw [valuesOf_collected hi (List.ne_nil_of_mem hmem), columnOf_scopeColumn]
    rfl

end Indexed

end Watchd.Watch
