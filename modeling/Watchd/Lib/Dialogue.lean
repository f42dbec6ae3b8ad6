import Mathlib.Logic.Basic

/-!
# Programs in dialogue with their environment

A program makes calls and goes on with the answers.  Its environment gives to each
call one of the replies that it may give where it stands, and moves on by itself
between two calls.  `Ensures` says that every call is in order and that the
program, if it returns, returns what is asked of it, whatever is replied and
whatever happens in between.  `Meets` are the triples for programs that may fail.

`Ensures.of_runs` and `exists_runs` are the two ways between triples and runs.
-/

namespace Watchd.Lib

/-- A program whose calls `c` are answered by values of `R c`. -/
inductive Dialogue (C : Type) (R : C → Type) (α : Type)
  | pure (a : α)
  | call (c : C) (next : R c → Dialogue C R α)

/-- What a program is in dialogue with, over its states `σ`. -/
structure Environment (C : Type) (R : C → Type) (σ : Type*) where
  /-- what may happen between two calls -/
  Drifts : σ → σ → Prop
  /-- the calls that are in order -/
  Accepts : σ → C → Prop
  /-- the replies to a call, with what it leaves behind -/
  Replies : σ → (c : C) → R c → σ → Prop

namespace Dialogue

variable {C : Type} {R : C → Type} {ε α β : Type} {σ : Type*}

/-- Goes on with the result. -/
def bind (p : Dialogue C R α) (f : α → Dialogue C R β) : Dialogue C R β :=
  match p with
  | .pure a => f a
  | .call c next => .call c fun r => (next r).bind f

instance : Monad (Dialogue C R) where
  pure := .pure
  bind := bind

/-- One call. -/
def ask (c : C) : Dialogue C R (R c) := .call c .pure

/-- Every call is in order, and the program returns only with what `Q` asks. -/
def Ensures (E : Environment C R σ) (Q : α → σ → Prop) : Dialogue C R α → σ → Prop
  | .pure a, s => Q a s
  | .call c next, s => ∀ s₁, E.Drifts s s₁ →
      E.Accepts s₁ c ∧ ∀ r s₂, E.Replies s₁ c r s₂ → (next r).Ensures E Q s₂

variable {E : Environment C R σ}

theorem ensures_bind {Q : β → σ → Prop} {p : Dialogue C R α} {f : α → Dialogue C R β} {s : σ} :
    (p >>= f).Ensures E Q s ↔ p.Ensures E (fun a s => (f a).Ensures E Q s) s := by
  induction p generalizing s with
  | pure a => rfl
  | call c next ih =>
    refine forall_congr' fun s₁ => imp_congr_right fun _ => and_congr_right fun _ => ?_
    exact forall_congr' fun r => forall_congr' fun s₂ => imp_congr_right fun _ => ih r

theorem Ensures.mono {Q Q' : α → σ → Prop} {p : Dialogue C R α} {s : σ}
    (h : p.Ensures E Q s) (hQ : ∀ a s, Q a s → Q' a s) : p.Ensures E Q' s := by
  induction p generalizing s with
  | pure a => exact hQ a s h
  | call c next ih =>
    intro s₁ hdrift
    obtain ⟨haccepts, hreplies⟩ := h s₁ hdrift
    exact ⟨haccepts, fun r s₂ hr => ih r (hreplies r s₂ hr)⟩

/-! ## Runs -/

/-- The program returns `a` with the environment in the last state. -/
inductive Runs (E : Environment C R σ) : σ → Dialogue C R α → α → σ → Prop
  | pure (a : α) (s : σ) : Runs E s (.pure a) a s
  | call {c : C} {next : R c → Dialogue C R α} {s s₁ s₂ s' : σ} {r : R c} {a : α}
      (hdrift : E.Drifts s s₁) (hreply : E.Replies s₁ c r s₂) (hrest : Runs E s₂ (next r) a s') :
      Runs E s (.call c next) a s'

/-- A run whose first call is answered by `r`, for some last state. -/
theorem exists_runs_call (c : C) (r : R c) {next : R c → Dialogue C R α} {s s₁ s₂ : σ} {a : α}
    (hdrift : E.Drifts s s₁) (hreply : E.Replies s₁ c r s₂)
    (hrest : ∃ s', Runs E s₂ (next r) a s') :
    ∃ s', Runs E s (.call c next) a s' :=
  hrest.imp fun _ hrest => .call hdrift hreply hrest

/-- Where every call may be answered, every program may return. -/
theorem exists_runs (hdrift : ∀ s, E.Drifts s s) (hreply : ∀ s c, ∃ r s', E.Replies s c r s')
    (p : Dialogue C R α) (s : σ) : ∃ a s', Runs E s p a s' := by
  induction p generalizing s with
  | pure a => exact ⟨a, s, .pure a s⟩
  | call c next ih =>
    obtain ⟨r, s₂, hr⟩ := hreply s c
    obtain ⟨a, hrest⟩ := ih r s₂
    exact ⟨a, exists_runs_call c r (hdrift s) hr hrest⟩

/-- What a program ensures holds however it runs. -/
theorem Ensures.of_runs {Q : α → σ → Prop} {p : Dialogue C R α} {s s' : σ} {a : α}
    (h : p.Ensures E Q s) (hr : Runs E s p a s') : Q a s' := by
  induction hr with
  | pure a s => exact h
  | call hdrift hreply _ ih => exact ih ((h _ hdrift).2 _ _ hreply)

end Dialogue

/-! ## Programs that may fail -/

section Fallible

variable {C : Type} {R : C → Type} {ε α β : Type} {σ : Type*} {E : Environment C R σ}

/-- A call, in a program that may fail. -/
def query (c : C) : ExceptT ε (Dialogue C R) (R c) := ExceptT.lift (Dialogue.ask c)

/-- Go's `defer`: `after` runs once `p` has returned, and may change what it returned. -/
def deferring (p : ExceptT ε (Dialogue C R) α)
    (after : Except ε α → Dialogue C R (Except ε α)) : ExceptT ε (Dialogue C R) α :=
  ExceptT.mk (p.run >>= after)

/-- The postcondition with one part for each way to return. -/
def Either (Q : α → σ → Prop) (F : ε → σ → Prop) (r : Except ε α) (s : σ) : Prop :=
  match r with
  | .ok a => Q a s
  | .error e => F e s

/-- From every state of `P` the program is in order, returns values only as `Q` asks, and errors
only as `F` does. -/
def Meets (E : Environment C R σ) (P : σ → Prop) (p : ExceptT ε (Dialogue C R) α)
    (Q : α → σ → Prop) (F : ε → σ → Prop) : Prop :=
  ∀ s, P s → p.run.Ensures E (Either Q F) s

namespace Meets

variable {P P' : σ → Prop} {Q Q' : α → σ → Prop} {F F' : ε → σ → Prop}

theorem pure {a : α} (h : ∀ s, P s → Q a s) :
    Meets E P (Pure.pure a : ExceptT ε (Dialogue C R) α) Q F :=
  h

theorem throw {e : ε} (h : ∀ s, P s → F e s) :
    Meets E P (MonadExcept.throw e : ExceptT ε (Dialogue C R) α) Q F :=
  h

theorem of_fact {fact : Prop} {p : ExceptT ε (Dialogue C R) α} (h : fact → Meets E P p Q F) :
    Meets E (fun s => fact ∧ P s) p Q F :=
  fun s hs => h hs.1 s hs.2

theorem of_exists {ι : Sort*} {P : ι → σ → Prop} {p : ExceptT ε (Dialogue C R) α}
    (h : ∀ i, Meets E (P i) p Q F) : Meets E (fun s => ∃ i, P i s) p Q F := by
  rintro s ⟨i, hs⟩
  exact h i s hs

/-- Go's `if c { return err }`. -/
theorem guard {c : Prop} [Decidable c] {e : ε} {p : ExceptT ε (Dialogue C R) α}
    (hF : ∀ s, P s → F e s) (hp : ¬c → Meets E P p Q F) :
    Meets E P (if c then MonadExcept.throw e else p) Q F := by
  by_cases hc : c
  · rw [if_pos hc]
    exact throw hF
  · rw [if_neg hc]
    exact hp hc

/-- An error ends the sequence; otherwise it goes on from what the first part left. -/
theorem bind {p : ExceptT ε (Dialogue C R) α} {f : α → ExceptT ε (Dialogue C R) β}
    {Q' : β → σ → Prop} (hp : Meets E P p Q F) (hf : ∀ a, Meets E (Q a) (f a) Q' F) :
    Meets E P (p >>= f) Q' F := by
  intro s hs
  refine Dialogue.ensures_bind.2 ((hp s hs).mono ?_)
  rintro (e | a) s' h
  · exact h
  · exact hf a s' h

theorem conseq {p : ExceptT ε (Dialogue C R) α} (h : Meets E P p Q F) (hP : ∀ s, P' s → P s)
    (hQ : ∀ a s, Q a s → Q' a s) (hF : ∀ e s, F e s → F' e s) : Meets E P' p Q' F' := by
  intro s hs
  refine (h s (hP s hs)).mono ?_
  rintro (e | a) s' h
  · exact hF e s' h
  · exact hQ a s' h

theorem query {c : C} {Q : R c → σ → Prop}
    (h : ∀ s s₁, P s → E.Drifts s s₁ → E.Accepts s₁ c ∧ ∀ r s₂, E.Replies s₁ c r s₂ → Q r s₂) :
    Meets E P (Lib.query c : ExceptT ε (Dialogue C R) (R c)) Q F :=
  fun s hs s₁ hdrift => h s s₁ hs hdrift

theorem deferring {p : ExceptT ε (Dialogue C R) α}
    {after : Except ε α → Dialogue C R (Except ε α)} (hp : Meets E P p Q F)
    (hok : ∀ a s, Q a s → (after (.ok a)).Ensures E (Either Q' F') s)
    (herr : ∀ e s, F e s → (after (.error e)).Ensures E (Either Q' F') s) :
    Meets E P (Lib.deferring p after) Q' F' := by
  intro s hs
  refine Dialogue.ensures_bind.2 ((hp s hs).mono ?_)
  rintro (e | a) s' h
  · exact herr e s' h
  · exact hok a s' h

/-- The same, where one predicate speaks about results of both kinds. -/
theorem deferred {T T' : Except ε α → σ → Prop} {p : ExceptT ε (Dialogue C R) α}
    {after : Except ε α → Dialogue C R (Except ε α)}
    (hp : Meets E P p (fun a => T (.ok a)) fun e => T (.error e))
    (hafter : ∀ r s, T r s → (after r).Ensures E T' s) :
    Meets E P (Lib.deferring p after) (fun a => T' (.ok a)) fun e => T' (.error e) := by
  have hboth : ∀ r s, T' r s → Either (fun a => T' (.ok a)) (fun e => T' (.error e)) r s := by
    rintro (e | a) s h
    · exact h
    · exact h
  exact deferring hp (fun a s h => (hafter _ s h).mono hboth) fun e s h => (hafter _ s h).mono hboth

end Meets

end Fallible

end Watchd.Lib
