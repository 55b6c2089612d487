import Mathlib.Logic.Relation

namespace Run

open Relation

section

variable {σ ι : Type*} {step : σ → ι → σ} {R : σ → σ → Prop} {P : σ → Prop}

theorem foldl_preserves (h : ∀ s i, P s → P (step s i)) {s : σ} (hs : P s) (inputs : List ι) :
    P (inputs.foldl step s) := by
  induction inputs generalizing s with
  | nil => exact hs
  | cons i rest ih => exact ih (h s i hs)

theorem foldl_preserves_of_mem {inputs : List ι} (h : ∀ s, ∀ i ∈ inputs, P s → P (step s i))
    {s : σ} (hs : P s) : P (inputs.foldl step s) := by
  induction inputs generalizing s with
  | nil => exact hs
  | cons i rest ih =>
    exact ih (fun s j hj => h s j (List.mem_cons_of_mem i hj)) (h s i List.mem_cons_self hs)

-- Every step of a run starts in a state and with an input that `C` allows.
def Meets (step : σ → ι → σ) (C : σ → ι → Prop) : σ → List ι → Prop
  | _, [] => True
  | s, i :: rest => C s i ∧ Meets step C (step s i) rest

instance Meets.decidable {C : σ → ι → Prop} [∀ s i, Decidable (C s i)] :
    ∀ s inputs, Decidable (Meets step C s inputs)
  | _, [] => .isTrue trivial
  | s, i :: rest =>
      have : Decidable (Meets step C (step s i) rest) := Meets.decidable (step s i) rest
      inferInstanceAs (Decidable (C s i ∧ Meets step C (step s i) rest))

theorem Meets.preserves {C : σ → ι → Prop} (h : ∀ s i, C s i → P s → P (step s i)) {s : σ}
    {inputs : List ι} (hmeets : Meets step C s inputs) (hs : P s) : P (inputs.foldl step s) := by
  induction inputs generalizing s with
  | nil => exact hs
  | cons i rest ih => exact ih hmeets.2 (h s i hmeets.1 hs)

theorem Meets.and_forall {C : σ → ι → Prop} {D : ι → Prop} {s : σ} {inputs : List ι}
    (h : Meets step C s inputs) (hd : ∀ i ∈ inputs, D i) :
    Meets step (fun s i => C s i ∧ D i) s inputs := by
  induction inputs generalizing s with
  | nil => trivial
  | cons i rest ih =>
    exact ⟨⟨h.1, hd i List.mem_cons_self⟩, ih h.2 fun j hj => hd j (List.mem_cons_of_mem i hj)⟩

theorem Meets.and {C D : σ → ι → Prop} {s : σ} {inputs : List ι} (h : Meets step C s inputs)
    (h' : Meets step D s inputs) : Meets step (fun s i => C s i ∧ D s i) s inputs := by
  induction inputs generalizing s with
  | nil => trivial
  | cons i rest ih => exact ⟨⟨h.1, h'.1⟩, ih h.2 h'.2⟩

theorem meets_append {C : σ → ι → Prop} {s : σ} {inputs inputs' : List ι} :
    Meets step C s (inputs ++ inputs') ↔
      Meets step C s inputs ∧ Meets step C (inputs.foldl step s) inputs' := by
  induction inputs generalizing s with
  | nil => simp [Meets]
  | cons i rest ih => simp only [List.cons_append, Meets, List.foldl_cons, ih, and_assoc]

theorem meets_still {C : σ → ι → Prop} {s : σ} {inputs : List ι}
    (h : ∀ i ∈ inputs, step s i = s ∧ C s i) :
    inputs.foldl step s = s ∧ Meets step C s inputs := by
  induction inputs with
  | nil => exact ⟨rfl, trivial⟩
  | cons i rest ih =>
    obtain ⟨hstep, hc⟩ := h i List.mem_cons_self
    obtain ⟨hfold, hmeets⟩ := ih fun j hj => h j (List.mem_cons_of_mem i hj)
    refine ⟨?_, hc, ?_⟩
    · rw [List.foldl_cons, hstep]
      exact hfold
    · rw [hstep]
      exact hmeets

theorem star_preserves (h : ∀ s t, R s t → P s → P t) {s t : σ} (hst : ReflTransGen R s t)
    (hs : P s) : P t := by
  induction hst with
  | refl => exact hs
  | tail _ hstep ih => exact h _ _ hstep ih

end

-- Machines that answer every input.
section

variable {σ τ ι ο : Type*}

-- The state after a run and the answers on the way.
def answers (step : σ → ι → σ × ο) : σ → List ι → σ × List ο
  | s, [] => (s, [])
  | s, i :: rest =>
      let (s, answer) := step s i
      let (s, later) := answers step s rest
      (s, answer :: later)

-- Related states that stay related and answer alike give the same answers for ever.
theorem answers_simulate {step : σ → ι → σ × ο} {spec : τ → ι → τ × ο} {R : σ → τ → Prop}
    (h : ∀ s t i, R s t → R (step s i).1 (spec t i).1 ∧ (step s i).2 = (spec t i).2) {s : σ} {t : τ}
    (hst : R s t) (inputs : List ι) :
    R (answers step s inputs).1 (answers spec t inputs).1 ∧
      (answers step s inputs).2 = (answers spec t inputs).2 := by
  induction inputs generalizing s t with
  | nil => exact ⟨hst, rfl⟩
  | cons i rest ih =>
    obtain ⟨hnext, hanswer⟩ := h s t i hst
    obtain ⟨hlast, hlater⟩ := ih hnext
    exact ⟨hlast, by simp only [answers, hanswer, hlater]⟩

end

-- A loop over keys whose body only reads and writes the cell of its key.
section

variable {σ κ ν : Type*} (cell : σ → κ → ν) {body : σ → κ → σ} {update : ν → ν} {l : List κ} {k : κ}

theorem foldl_cell_of_not_mem (hother : ∀ s i k, k ≠ i → cell (body s i) k = cell s k) (hk : k ∉ l)
    (s : σ) : cell (l.foldl body s) k = cell s k := by
  induction l generalizing s with
  | nil => rfl
  | cons i rest ih =>
    obtain ⟨hne, hrest⟩ := not_or.mp (mt List.mem_cons.mpr hk)
    exact (ih hrest (body s i)).trans (hother s i k hne)

theorem foldl_cell_of_mem (hself : ∀ s i, cell (body s i) i = update (cell s i))
    (hother : ∀ s i k, k ≠ i → cell (body s i) k = cell s k) (hl : l.Nodup) (hk : k ∈ l) (s : σ) :
    cell (l.foldl body s) k = update (cell s k) := by
  induction l generalizing s with
  | nil => cases hk
  | cons i rest ih =>
    obtain ⟨hi, hrest⟩ := List.nodup_cons.mp hl
    by_cases heq : k = i
    · subst heq
      exact (foldl_cell_of_not_mem cell hother hi _).trans (hself s k)
    · have hmem : k ∈ rest := (List.mem_cons.mp hk).resolve_left heq
      rw [List.foldl_cons, ih hrest hmem, hother s i k heq]

end

end Run
