import Mathlib.Data.List.Induction

namespace Trace

section

variable {α β : Type*} (start : α → Option β) (stop : β → α → Bool)

-- What the last starting entry of a trace opened, unless a later entry ended it.
def last (log : List α) : Option β :=
  log.foldl (fun current x =>
    match start x with
    | some b => some b
    | none => current.filter fun b => !stop b x) none

-- `R` relates any two successive openings without an end of the first one between them.
def Linked (R : β → β → Prop) (log : List α) : Prop :=
  ∀ pre x mid y post b c, log = pre ++ x :: mid ++ y :: post → start x = some b →
    start y = some c → (∀ z ∈ mid, start z = none ∧ stop b z = false) → R b c

variable {start stop}

@[simp] theorem last_nil : last start stop [] = none := rfl

theorem last_concat (log : List α) (x : α) :
    last start stop (log ++ [x]) =
      match start x with
      | some b => some b
      | none => (last start stop log).filter fun b => !stop b x := by
  unfold last
  rw [List.foldl_append]
  rfl

theorem last_concat_start {log : List α} {x : α} {b : β} (h : start x = some b) :
    last start stop (log ++ [x]) = some b := by
  rw [last_concat, h]

theorem last_concat_quiet {log : List α} {x : α} (h : start x = none) :
    last start stop (log ++ [x]) = (last start stop log).filter fun b => !stop b x := by
  rw [last_concat, h]

theorem last_append_neutral {log log' : List α}
    (h : ∀ x ∈ log', start x = none ∧ ∀ b, stop b x = false) :
    last start stop (log ++ log') = last start stop log := by
  induction log' using List.reverseRecOn with
  | nil => simp
  | append_singleton rest x ih =>
    obtain ⟨hstart, hstop⟩ := h x (by simp)
    rw [← List.append_assoc, last_concat_quiet hstart, ih fun y hy => h y (by simp [hy])]
    cases last start stop log with
    | none => rfl
    | some b => simp [Option.filter, hstop]

theorem last_split {pre mid : List α} {x : α} {b : β} (hx : start x = some b)
    (hmid : ∀ z ∈ mid, start z = none ∧ stop b z = false) :
    last start stop (pre ++ x :: mid) = some b := by
  induction mid using List.reverseRecOn with
  | nil => exact last_concat_start hx
  | append_singleton rest z ih =>
    obtain ⟨hstart, hstop⟩ := hmid z (by simp)
    rw [← List.cons_append, ← List.append_assoc, last_concat_quiet hstart,
      ih fun y hy => hmid y (by simp [hy])]
    simp [Option.filter, hstop]

theorem Linked.nil {R : β → β → Prop} : Linked start stop R [] := by
  intro pre x mid y post b c h
  simp at h

theorem Linked.concat {R : β → β → Prop} {log : List α} {y : α} (h : Linked start stop R log)
    (hy : ∀ b c, last start stop log = some b → start y = some c → R b c) :
    Linked start stop R (log ++ [y]) := by
  intro pre x mid z post b c hlog hx hz hmid
  rcases List.eq_nil_or_concat post with rfl | ⟨post', w, rfl⟩
  · obtain ⟨rfl, hzy⟩ := List.append_inj' hlog (by simp)
    obtain rfl : y = z := by simpa using hzy
    exact hy b c (last_split hx hmid) hz
  · have hlog' : log = pre ++ x :: mid ++ z :: post' := by
      have hsplit : log ++ [y] = (pre ++ x :: mid ++ z :: post') ++ [w] := by simpa using hlog
      exact (List.append_inj' hsplit rfl).1
    exact h pre x mid z post' b c hlog' hx hz hmid

theorem Linked.append_neutral {R : β → β → Prop} {log log' : List α}
    (h : Linked start stop R log) (hquiet : ∀ x ∈ log', start x = none) :
    Linked start stop R (log ++ log') := by
  induction log' using List.reverseRecOn with
  | nil => simpa using h
  | append_singleton rest x ih =>
    rw [← List.append_assoc]
    refine (ih fun y hy => hquiet y (by simp [hy])).concat fun b c _ hx => ?_
    rw [hquiet x (by simp)] at hx
    exact absurd hx (by simp)

end

end Trace
