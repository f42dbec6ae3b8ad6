import Watchd.Lib.Transition

/-!
# What a run shows an observer

Each step of a machine shows an observer something or nothing.  If two runs show
the same, a relation between their states is kept, provided that a step that
shows nothing keeps it on its own and two steps that show the same keep it
together (unwinding).

The rule is `related`.
-/

namespace Watchd.Lib

variable {σ ℓ ω : Type*} {m : Machine σ ℓ}

/-- A run of steps that meet `ok`, from `start` to a state, shows a list of observations. -/
inductive Shows (m : Machine σ ℓ) (ok : σ → ℓ → Prop) (obs : σ → ℓ → Option ω) (start : σ) :
    σ → List ω → Prop
  | start : Shows m ok obs start start []
  | step {s s' : σ} {l : ℓ} {trace : List ω} (h : Shows m ok obs start s trace) (hok : ok s l)
      (hs : m.step s l = some s') : Shows m ok obs start s' (trace ++ (obs s l).toList)

namespace Shows

variable {ok ok' : σ → ℓ → Prop} {obs obs' : σ → ℓ → Option ω} {start start' s s' : σ}
  {trace : List ω}

section Unwinding

variable {R : σ → σ → Prop}
  (hleft : ∀ s l t s', ok s l → m.step s l = some t → obs s l = none → R s s' → R t s')
  (hright : ∀ s s' l' t', ok' s' l' → m.step s' l' = some t' → obs' s' l' = none → R s s' → R s t')
  (hboth : ∀ s l t s' l' t' o, ok s l → m.step s l = some t → ok' s' l' → m.step s' l' = some t' →
    obs s l = some o → obs' s' l' = some o → R s s' → R t t')

include hright in
/-- A run that shows nothing keeps the relation. -/
theorem related_of_silent (hstart : R s start') (h : Shows m ok' obs' start' s' trace)
    (htrace : trace = []) : R s s' := by
  induction h with
  | start => exact hstart
  | @step u u' l' tr h hok hs ih =>
    obtain ⟨htr, hobs⟩ := List.append_eq_nil_iff.1 htrace
    exact hright s u l' u' hok hs (Option.toList_eq_nil_iff.1 hobs) (ih htr)

include hright hboth in
/-- One more observation on both sides keeps the relation. -/
theorem related_of_last {t : σ} {l : ℓ} {o : ω} (hok : ok s l) (hs : m.step s l = some t)
    (hobs : obs s l = some o) (hR : ∀ u, Shows m ok' obs' start' u trace → R s u)
    {trace' : List ω} (h : Shows m ok' obs' start' s' trace') (htrace : trace' = trace ++ [o]) :
    R t s' := by
  induction h with
  | start => simp at htrace
  | @step u u' l' tr h hok' hs' ih =>
    cases hobs' : obs' u l' with
    | none =>
      -- the observation was made earlier
      rw [hobs', Option.toList_none, List.append_nil] at htrace
      exact hright t u l' u' hok' hs' hobs' (ih htrace)
    | some o' =>
      rw [hobs', Option.toList_some] at htrace
      obtain ⟨rfl, heq⟩ := List.append_inj' htrace rfl
      cases heq
      exact hboth s l t u l' u' _ hok hs hok' hs' hobs hobs' (hR u h)

include hleft hright hboth in
/-- **Unwinding**: runs that show the same are related. -/
theorem related (hstart : R start start') (h : Shows m ok obs start s trace)
    (h' : Shows m ok' obs' start' s' trace) : R s s' := by
  induction h generalizing s' with
  | start => exact related_of_silent hright hstart h' rfl
  | @step u u' l tr h hok hs ih =>
    cases hobs : obs u l with
    | none =>
      rw [hobs, Option.toList_none, List.append_nil] at h'
      exact hleft u l u' s' hok hs hobs (ih h')
    | some o =>
      rw [hobs, Option.toList_some] at h'
      exact related_of_last hright hboth hok hs hobs (fun v hv => ih hv) h' rfl

end Unwinding

/-- Replay a list of labels, noting what the run shows. -/
def replay (m : Machine σ ℓ) (ok : σ → ℓ → Prop) [∀ s l, Decidable (ok s l)]
    (obs : σ → ℓ → Option ω) : σ × List ω → List ℓ → Option (σ × List ω)
  | r, [] => some r
  | r, l :: ls =>
    if ok r.1 l then
      (m.step r.1 l).bind fun s => replay m ok obs (s, r.2 ++ (obs r.1 l).toList) ls
    else none

theorem of_replay [∀ s l, Decidable (ok s l)] {ls : List ℓ} :
    ∀ {r r' : σ × List ω}, Shows m ok obs start r.1 r.2 → replay m ok obs r ls = some r' →
      Shows m ok obs start r'.1 r'.2 := by
  induction ls with
  | nil =>
    intro r r' h hr
    cases hr
    exact h
  | cons l ls ih =>
    intro r r' h hr
    unfold replay at hr
    split at hr
    · next hok =>
      obtain ⟨s, hs, hrest⟩ := Option.bind_eq_some_iff.mp hr
      exact ih (r := (s, r.2 ++ (obs r.1 l).toList)) (.step h hok hs) hrest
    · cases hr

end Shows

end Watchd.Lib
