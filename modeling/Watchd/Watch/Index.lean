import Watchd.Watch.Hub

/-!
# The route index is exact

`Accept` finds the watchers a change concerns through `routes`.  `Indexed` says
that this index mirrors the set of registered watchers: the list a table, scope
column and scope lead to holds exactly the watchers registered for them, each
once.  Registering, removing and ending watchers keep it so.

These are the lemmas of namespace `Indexed`.
-/

namespace Watchd.Watch

open Watchd.Cdc

/-! ## One table's routes -/

/-- The route of a scope column in a table's list, or an empty one. -/
def columnOf (col : String) (routes : List Route) : Route :=
  (routes.find? fun route => route.scopeColumn = col).getD ⟨col, ∅⟩

/-- Updates the route of a scope column, appended if the list has none. -/
def modifyColumn (col : String) (f : Route → Route) : List Route → List Route
  | [] => [f ⟨col, ∅⟩]
  | route :: routes =>
    if route.scopeColumn = col then f route :: routes else route :: modifyColumn col f routes

theorem columnOf_cons (col : String) (route : Route) (routes : List Route) :
    columnOf col (route :: routes) =
      if route.scopeColumn = col then route else columnOf col routes := by
  unfold columnOf
  by_cases h : route.scopeColumn = col <;> simp [h]

theorem columnOf_modifyColumn {f : Route → Route} (hf : ∀ r, (f r).scopeColumn = r.scopeColumn)
    (col col' : String) (routes : List Route) :
    columnOf col' (modifyColumn col f routes) =
      if col' = col then f (columnOf col routes) else columnOf col' routes := by
  induction routes with
  | nil =>
    rw [modifyColumn, columnOf_cons, hf]
    by_cases h : col' = col
    · simp [h, columnOf]
    · simp [h, Ne.symm h, columnOf]
  | cons route routes ih =>
    rw [modifyColumn]
    by_cases hr : route.scopeColumn = col
    · rw [if_pos hr, columnOf_cons, hf, columnOf_cons, columnOf_cons, if_pos hr]
      by_cases h : col' = col
      · simp [h, hr]
      · have hne : route.scopeColumn ≠ col' := fun e => h (e.symm.trans hr)
        simp [h, hne]
    · rw [if_neg hr, columnOf_cons, ih, columnOf_cons, columnOf_cons, if_neg hr]
      by_cases h : col' = col
      · subst h
        simp [hr]
      · simp [h]

theorem columns_modifyColumn {f : Route → Route} (hf : ∀ r, (f r).scopeColumn = r.scopeColumn)
    (col : String) (routes : List Route) :
    (modifyColumn col f routes).map Route.scopeColumn =
      if col ∈ routes.map Route.scopeColumn then routes.map Route.scopeColumn
      else routes.map Route.scopeColumn ++ [col] := by
  induction routes with
  | nil => simp [modifyColumn, hf]
  | cons route routes ih =>
    rw [modifyColumn]
    by_cases hr : route.scopeColumn = col
    · simp [hr, hf]
    · rw [if_neg hr, List.map_cons, ih]
      by_cases hc : col ∈ routes.map Route.scopeColumn
      · simp only [hc, if_true, List.map_cons, List.mem_cons, or_true]
      · simp only [hc, if_false, List.map_cons, List.mem_cons, Ne.symm hr, or_false,
          List.cons_append]

theorem columns_modifyColumn_nodup {f : Route → Route}
    (hf : ∀ r, (f r).scopeColumn = r.scopeColumn) {col : String} {routes : List Route}
    (h : (routes.map Route.scopeColumn).Nodup) :
    ((modifyColumn col f routes).map Route.scopeColumn).Nodup := by
  rw [columns_modifyColumn hf]
  split
  · exact h
  · next hc =>
    refine h.append (by simp) ?_
    intro x hx hx'
    rw [List.mem_singleton] at hx'
    exact hc (hx' ▸ hx)

/-- A route of a list without repeated columns is what its column leads to. -/
theorem columnOf_of_mem {routes : List Route} (h : (routes.map Route.scopeColumn).Nodup)
    {route : Route} (hr : route ∈ routes) : columnOf route.scopeColumn routes = route := by
  induction routes with
  | nil => cases hr
  | cons r routes ih =>
    rw [List.map_cons, List.nodup_cons] at h
    rw [columnOf_cons]
    rcases List.mem_cons.1 hr with rfl | hr
    · rw [if_pos rfl]
    · have hne : r.scopeColumn ≠ route.scopeColumn := fun e =>
        h.1 (e ▸ List.mem_map_of_mem hr)
      rw [if_neg hne, ih h.2 hr]

/-- A column that leads to watchers is the column of one of the routes. -/
theorem mem_of_columnOf_at {routes : List Route} {col : String} {scope : Text} {w : WatcherId}
    (h : w ∈ (columnOf col routes).at scope) : columnOf col routes ∈ routes := by
  unfold columnOf at h ⊢
  cases hfind : routes.find? fun route => route.scopeColumn = col with
  | none => simp [hfind, Route.at] at h
  | some route => simpa [hfind] using List.mem_of_find?_eq_some hfind

theorem columnOf_scopeColumn (col : String) (routes : List Route) :
    (columnOf col routes).scopeColumn = col := by
  unfold columnOf
  cases hfind : routes.find? fun route => route.scopeColumn = col with
  | none => rfl
  | some route => simpa using List.find?_some hfind

/-! ## Scopes of one route -/

theorem Route.at_insert (route : Route) (scope scope' : Text) (ws : List WatcherId) :
    Route.at { route with scopes := route.scopes.insert scope ws } scope' =
      if scope' = scope then ws else route.at scope' := by
  unfold Route.at
  split
  · next h => rw [h, Finmap.lookup_insert, Option.getD_some]
  · next h => rw [Finmap.lookup_insert_of_ne _ h]

theorem Registry.at_dropFrom (w : WatcherId) (scope scope' : Text) (route : Route) :
    (Registry.dropFrom w scope route).at scope' =
      if scope' = scope then (route.at scope).filter (· ≠ w) else route.at scope' := by
  unfold Registry.dropFrom
  simp only
  split
  · next hlen =>
    have hnil : (route.at scope).filter (· ≠ w) = [] := List.length_eq_zero_iff.1 hlen
    unfold Route.at
    split
    · next h =>
      rw [h, Finmap.lookup_erase]
      exact hnil.symm
    · next h => rw [Finmap.lookup_erase_ne h]
  · exact Route.at_insert route scope scope' _

theorem Registry.dropFrom_scopeColumn (w : WatcherId) (scope : Text) (route : Route) :
    (Registry.dropFrom w scope route).scopeColumn = route.scopeColumn := by
  unfold Registry.dropFrom
  simp only
  split <;> rfl

theorem Registry.dropFrom_lookup_ne_nil {w : WatcherId} {scope scope' : Text} {route : Route}
    (h : ∀ s, route.scopes.lookup s ≠ some []) :
    (Registry.dropFrom w scope route).scopes.lookup scope' ≠ some [] := by
  unfold Registry.dropFrom
  simp only
  split
  · by_cases hs : scope' = scope
    · rw [hs, Finmap.lookup_erase]
      exact nofun
    · rw [Finmap.lookup_erase_ne hs]
      exact h scope'
  · next hlen =>
    by_cases hs : scope' = scope
    · rw [hs, Finmap.lookup_insert]
      intro e
      rw [Option.some.injEq] at e
      exact hlen (List.length_eq_zero_iff.2 e)
    · rw [Finmap.lookup_insert_of_ne _ hs]
      exact h scope'

/-! ## The whole index -/

namespace Registry

/-- The route of a table and scope column. -/
def column (r : Registry) (table col : String) : Route := columnOf col (r.routesOf table)

/-- Updating a route touches nothing but the routes. -/
theorem updateRoute_eq (r : Registry) (p : Projection) (f : Route → Route) :
    ∃ routes, r.updateRoute p f = { r with routes := routes } := by
  unfold updateRoute routeLocked
  cases (r.routesOf p.table).findIdx? fun route => route.scopeColumn = p.spec.scopeColumn with
  | none => exact ⟨_, rfl⟩
  | some i => exact ⟨_, rfl⟩

@[simp] theorem updateRoute_watchers (r : Registry) (p : Projection) (f : Route → Route) :
    (r.updateRoute p f).watchers = r.watchers := by
  obtain ⟨routes, h⟩ := updateRoute_eq r p f
  rw [h]

@[simp] theorem updateRoute_cell (r : Registry) (p : Projection) (f : Route → Route) :
    (r.updateRoute p f).cell = r.cell := by
  obtain ⟨routes, h⟩ := updateRoute_eq r p f
  rw [h]

@[simp] theorem updateRoute_queueSize (r : Registry) (p : Projection) (f : Route → Route) :
    (r.updateRoute p f).queueSize = r.queueSize := by
  obtain ⟨routes, h⟩ := updateRoute_eq r p f
  rw [h]

theorem modify_findIdx (col : String) (f : Route → Route) (routes : List Route) :
    (match routes.findIdx? fun route => route.scopeColumn = col with
      | some i => routes.modify i f
      | none =>
        (routes ++ [Route.mk col ∅]).modify routes.length f) = modifyColumn col f routes := by
  induction routes with
  | nil => rfl
  | cons route routes ih =>
    rw [List.findIdx?_cons, modifyColumn]
    by_cases h : route.scopeColumn = col
    · simp [h]
    · rw [if_neg h, ← ih]
      cases routes.findIdx? fun route => route.scopeColumn = col with
      | none => simp [h]
      | some i => simp [h]

theorem routesOf_updateRoute (r : Registry) (p : Projection) (f : Route → Route) (table : String) :
    (r.updateRoute p f).routesOf table =
      if table = p.table then modifyColumn p.spec.scopeColumn f (r.routesOf p.table)
      else r.routesOf table := by
  rw [← modify_findIdx]
  unfold updateRoute routeLocked
  by_cases h : table = p.table
  · subst h
    cases (r.routesOf p.table).findIdx? fun route => route.scopeColumn = p.spec.scopeColumn with
    | none => simp [routesOf, Finmap.lookup_insert]
    | some i => simp [routesOf, Finmap.lookup_insert]
  · cases (r.routesOf p.table).findIdx? fun route => route.scopeColumn = p.spec.scopeColumn with
    | none => simp [routesOf, h, Finmap.lookup_insert_of_ne]
    | some i => simp [routesOf, h, Finmap.lookup_insert_of_ne]

theorem column_updateRoute {f : Route → Route} (hf : ∀ r, (f r).scopeColumn = r.scopeColumn)
    (r : Registry) (p : Projection) (table col : String) :
    (r.updateRoute p f).column table col =
      if table = p.table ∧ col = p.spec.scopeColumn then f (r.column table col)
      else r.column table col := by
  unfold column
  rw [routesOf_updateRoute]
  by_cases ht : table = p.table
  · subst ht
    rw [if_pos rfl, columnOf_modifyColumn hf]
    by_cases hc : col = p.spec.scopeColumn
    · simp [hc]
    · simp [hc]
  · simp [ht]

theorem columns_updateRoute_nodup {r : Registry} {f : Route → Route}
    (hf : ∀ r, (f r).scopeColumn = r.scopeColumn)
    (h : ∀ table, ((r.routesOf table).map Route.scopeColumn).Nodup) (p : Projection)
    (table : String) : (((r.updateRoute p f).routesOf table).map Route.scopeColumn).Nodup := by
  rw [routesOf_updateRoute]
  split
  · exact columns_modifyColumn_nodup hf (h _)
  · exact h table

end Registry

/-- Whether a watcher belongs under a table, scope column and scope. -/
def Watcher.RoutedBy (c : Watcher) (table col : String) (scope : Text) : Prop :=
  c.projection.table = table ∧ c.projection.spec.scopeColumn = col ∧ c.scope = scope

/-- The index mirrors the registered watchers. -/
structure Indexed (r : Registry) : Prop where
  watchers_nodup : r.watchers.Nodup
  columns_nodup : ∀ table, ((r.routesOf table).map Route.scopeColumn).Nodup
  mem_column : ∀ table col scope w,
    w ∈ (r.column table col).at scope ↔ w ∈ r.watchers ∧ (r.cell w).RoutedBy table col scope
  column_nodup : ∀ table col scope, ((r.column table col).at scope).Nodup
  scopes_nonempty : ∀ table col scope, (r.column table col).scopes.lookup scope ≠ some []

namespace Indexed

variable {r : Registry}

/-- An empty registry is indexed. -/
theorem empty (queueSize : Nat) (cell : WatcherId → Watcher) :
    Indexed { queueSize := queueSize, cell := cell } := by
  have hcol : ∀ table col, Registry.column { queueSize := queueSize, cell := cell } table col =
      ⟨col, ∅⟩ := by
    intro table col
    simp [Registry.column, Registry.routesOf, columnOf]
  refine ⟨List.nodup_nil, ?_, ?_, ?_, ?_⟩
  · intro table
    simp [Registry.routesOf]
  · intro table col scope w
    rw [hcol]
    simp [Route.at]
  · intro table col scope
    rw [hcol]
    simp [Route.at]
  · intro table col scope
    rw [hcol]
    simp

/-- Registering a watcher that is not registered yet keeps the index exact. -/
theorem registerLocked (h : Indexed r) {w : WatcherId} (hw : w ∉ r.watchers) :
    Indexed (r.registerLocked w) := by
  unfold Registry.registerLocked
  simp only
  set f : Route → Route := fun route => { route with
    scopes := route.scopes.insert (r.cell w).scope (route.at (r.cell w).scope ++ [w]) } with hfdef
  have hf : ∀ route, (f route).scopeColumn = route.scopeColumn := fun _ => rfl
  set r₁ : Registry := { r with watchers := r.watchers.insert w } with hr₁
  have hcol : ∀ table col, (r₁.updateRoute (r.cell w).projection f).column table col =
      if table = (r.cell w).projection.table ∧ col = (r.cell w).projection.spec.scopeColumn
      then f (r.column table col) else r.column table col := fun table col =>
    Registry.column_updateRoute hf r₁ _ table col
  have hnot : ∀ table col scope, w ∉ (r.column table col).at scope := fun table col scope hmem =>
    hw ((h.mem_column table col scope w).1 hmem).1
  refine ⟨?_, ?_, ?_, ?_, ?_⟩
  · rw [Registry.updateRoute_watchers]
    exact h.watchers_nodup.insert
  · exact Registry.columns_updateRoute_nodup hf (r := r₁) h.columns_nodup _
  · intro table col scope w'
    have hmem := h.mem_column table col scope w'
    rw [hcol, Registry.updateRoute_watchers, Registry.updateRoute_cell]
    simp only [hr₁, List.mem_insert_iff]
    split
    · next heq =>
      rw [hfdef, Route.at_insert]
      split
      · next hs =>
        subst hs
        rw [List.mem_append, List.mem_singleton, hmem]
        constructor
        · rintro (hold | rfl)
          · exact ⟨.inr hold.1, hold.2⟩
          · exact ⟨.inl rfl, heq.1.symm, heq.2.symm, rfl⟩
        · rintro ⟨rfl | hold, hby⟩
          · exact .inr rfl
          · exact .inl ⟨hold, hby⟩
      · next hs =>
        rw [hmem]
        constructor
        · exact fun hold => ⟨.inr hold.1, hold.2⟩
        · rintro ⟨rfl | hold, hby⟩
          · exact absurd hby.2.2.symm hs
          · exact ⟨hold, hby⟩
    · next hne =>
      rw [hmem]
      constructor
      · exact fun hold => ⟨.inr hold.1, hold.2⟩
      · rintro ⟨rfl | hold, hby⟩
        · exact absurd ⟨hby.1.symm, hby.2.1.symm⟩ hne
        · exact ⟨hold, hby⟩
  · intro table col scope
    rw [hcol]
    split
    · rw [hfdef, Route.at_insert]
      split
      · refine (h.column_nodup table col _).append (by simp) ?_
        intro x hx hx'
        rw [List.mem_singleton] at hx'
        exact hnot table col _ (hx' ▸ hx)
      · exact h.column_nodup table col scope
    · exact h.column_nodup table col scope
  · intro table col scope
    rw [hcol]
    split
    · rw [hfdef]
      simp only
      by_cases hs : scope = (r.cell w).scope
      · rw [hs, Finmap.lookup_insert]
        simp
      · rw [Finmap.lookup_insert_of_ne _ hs]
        exact h.scopes_nonempty table col scope
    · exact h.scopes_nonempty table col scope

/-- Removing a registered watcher keeps the index exact. -/
theorem remove (h : Indexed r) (w : WatcherId) :
    Indexed (Registry.updateRoute { r with watchers := r.watchers.erase w }
      (r.cell w).projection (Registry.dropFrom w (r.cell w).scope)) := by
  have hf := Registry.dropFrom_scopeColumn w (r.cell w).scope
  set r₁ : Registry := { r with watchers := r.watchers.erase w } with hr₁
  set f := Registry.dropFrom w (r.cell w).scope with hfdef
  have hcol : ∀ table col, (r₁.updateRoute (r.cell w).projection f).column table col =
      if table = (r.cell w).projection.table ∧ col = (r.cell w).projection.spec.scopeColumn
      then f (r.column table col) else r.column table col := fun table col =>
    Registry.column_updateRoute hf r₁ _ table col
  refine ⟨?_, ?_, ?_, ?_, ?_⟩
  · rw [Registry.updateRoute_watchers]
    exact h.watchers_nodup.erase w
  · exact Registry.columns_updateRoute_nodup hf (r := r₁) h.columns_nodup _
  · intro table col scope w'
    have hmem := h.mem_column table col scope w'
    rw [hcol, Registry.updateRoute_watchers, Registry.updateRoute_cell]
    simp only [hr₁, h.watchers_nodup.mem_erase_iff]
    split
    · rw [hfdef, Registry.at_dropFrom]
      split
      · next hs =>
        subst hs
        rw [List.mem_filter, hmem]
        simp only [decide_eq_true_eq]
        tauto
      · next hs =>
        rw [hmem]
        constructor
        · rintro ⟨hold, hby⟩
          refine ⟨⟨?_, hold⟩, hby⟩
          rintro rfl
          exact hs hby.2.2.symm
        · exact fun hnew => ⟨hnew.1.2, hnew.2⟩
    · next hne =>
      rw [hmem]
      constructor
      · rintro ⟨hold, hby⟩
        refine ⟨⟨?_, hold⟩, hby⟩
        rintro rfl
        exact hne ⟨hby.1.symm, hby.2.1.symm⟩
      · exact fun hnew => ⟨hnew.1.2, hnew.2⟩
  · intro table col scope
    rw [hcol]
    split
    · rw [hfdef, Registry.at_dropFrom]
      split
      · exact (h.column_nodup table col _).filter _
      · exact h.column_nodup table col scope
    · exact h.column_nodup table col scope
  · intro table col scope
    rw [hcol]
    split
    · exact Registry.dropFrom_lookup_ne_nil (h.scopes_nonempty table col)
    · exact h.scopes_nonempty table col scope

/-- Overwriting a watcher without moving it to another projection or scope keeps the index
exact. -/
theorem setCell (h : Indexed r) {w : WatcherId} {c : Watcher}
    (hp : c.projection = (r.cell w).projection) (hs : c.scope = (r.cell w).scope) :
    Indexed (r.setCell w c) := by
  refine ⟨h.watchers_nodup, h.columns_nodup, ?_, h.column_nodup, h.scopes_nonempty⟩
  intro table col scope w'
  rw [show (r.setCell w c).column table col = r.column table col from rfl, h.mem_column]
  by_cases hw : w' = w
  · subst hw
    simp [Registry.setCell, Watcher.RoutedBy, hp, hs]
  · simp [Registry.setCell, hw]

/-- Overwriting a watcher that is not registered keeps the index exact. -/
theorem setCell_of_not_mem (h : Indexed r) {w : WatcherId} (hw : w ∉ r.watchers) (c : Watcher) :
    Indexed (r.setCell w c) := by
  refine ⟨h.watchers_nodup, h.columns_nodup, ?_, h.column_nodup, h.scopes_nonempty⟩
  intro table col scope w'
  rw [show (r.setCell w c).column table col = r.column table col from rfl, h.mem_column]
  by_cases hne : w' = w
  · subst hne
    simp [Registry.setCell, hw]
  · simp [Registry.setCell, hne]

end Indexed

end Watchd.Watch
