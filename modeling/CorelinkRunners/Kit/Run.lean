import Mathlib

/-!
# Runs of a deterministic machine

A run is a fold of a step function over a list of events. `Along` says that every event of a run
meets a condition in the state it finds, and `Along.invariant` is the induction over runs, stated
once: what each such event keeps, the run keeps.

`Traced` is the same for a history that a run leaves behind: every entry meets a condition on the
entries before it.
-/

namespace Kit

/-- Every event of the run meets `P` in the state it finds. -/
def Along {σ ε : Type} (step : σ → ε → σ) (P : σ → ε → Prop) : σ → List ε → Prop
  | _, [] => True
  | s, e :: es => P s e ∧ Along step P (step s e) es

namespace Along

variable {σ ε : Type} {step : σ → ε → σ} {P : σ → ε → Prop} {s : σ} {es : List ε}

instance [∀ s e, Decidable (P s e)] : Decidable (Along step P s es) :=
  decide s es
where
  decide : (s : σ) → (es : List ε) → Decidable (Along step P s es)
    | _, [] => .isTrue trivial
    | s, e :: es => @instDecidableAnd _ _ _ (decide (step s e) es)

theorem invariant (Inv : σ → Prop) (keeps : ∀ {s e}, Inv s → P s e → Inv (step s e))
    (along : Along step P s es) (hs : Inv s) : Inv (es.foldl step s) := by
  induction es generalizing s with
  | nil => exact hs
  | cons e es ih => exact ih along.2 (keeps hs along.1)

theorem append_iff {es' : List ε} :
    Along step P s (es ++ es') ↔ Along step P s es ∧ Along step P (es.foldl step s) es' := by
  induction es generalizing s with
  | nil => exact ⟨fun h => ⟨trivial, h⟩, fun h => h.2⟩
  | cons e es ih =>
    refine ⟨fun h => ?_, fun h => ⟨h.1.1, ih.mpr ⟨h.1.2, h.2⟩⟩⟩
    obtain ⟨first, second⟩ := ih.mp h.2
    exact ⟨⟨h.1, first⟩, second⟩

theorem mono {Q : σ → ε → Prop} (weaken : ∀ s e, P s e → Q s e) (along : Along step P s es) :
    Along step Q s es := by
  induction es generalizing s with
  | nil => exact trivial
  | cons e es ih => exact ⟨weaken s e along.1, ih along.2⟩

theorem and {Q : σ → ε → Prop} (along : Along step P s es) (also : Along step Q s es) :
    Along step (fun s e => P s e ∧ Q s e) s es := by
  induction es generalizing s with
  | nil => exact trivial
  | cons e es ih => exact ⟨⟨along.1, also.1⟩, ih along.2 also.2⟩

theorem of_forall (h : ∀ s e, P s e) : Along step P s es := by
  induction es generalizing s with
  | nil => exact trivial
  | cons e es ih => exact ⟨h s e, ih⟩

theorem of_invariant (Inv : σ → Prop) {Q : ε → Prop}
    (keeps : ∀ {s e}, Inv s → Q e → Inv (step s e)) (each : ∀ e ∈ es, Q e) (hs : Inv s) :
    Along step (fun s e => Inv s ∧ Q e) s es := by
  induction es generalizing s with
  | nil => exact trivial
  | cons e es ih =>
    have now := each e List.mem_cons_self
    exact ⟨⟨hs, now⟩, ih (fun e' h => each e' (List.mem_cons_of_mem _ h)) (keeps hs now)⟩

end Along

/-! ## Histories -/

/-- Every entry of a history meets `P` of what came before it. -/
def Traced {α : Type} (P : List α → α → Prop) (history : List α) : Prop :=
  ∀ before entry after, history = before ++ entry :: after → P before entry

namespace Traced

variable {α : Type} {P : List α → α → Prop} {history : List α}

theorem nil : Traced P [] := by
  intro before entry after split
  exact absurd split (by simp)

theorem snoc {entry : α} (traced : Traced P history) (last : P history entry) :
    Traced P (history ++ [entry]) := by
  intro before found after split
  rcases List.eq_nil_or_concat after with rfl | ⟨after, final, rfl⟩
  · obtain ⟨rfl, same⟩ := List.append_inj' split rfl
    cases same
    exact last
  · rw [List.concat_eq_append, ← List.cons_append, ← List.append_assoc] at split
    exact traced before found after (List.append_inj' split rfl).1

theorem append {entries : List α} (traced : Traced P history)
    (free : ∀ before, ∀ entry ∈ entries, P before entry) : Traced P (history ++ entries) := by
  induction entries generalizing history with
  | nil =>
    rw [List.append_nil]
    exact traced
  | cons entry rest ih =>
    rw [List.append_cons]
    refine ih (traced.snoc (free history entry List.mem_cons_self)) fun before other later => ?_
    exact free before other (List.mem_cons_of_mem _ later)

end Traced

end Kit
