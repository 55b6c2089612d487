import Mathlib.Data.List.Pairwise

namespace Fifo

section

variable {α : Type*} {herald subject : α → Prop} {ready ready' sent sent' : Prop} {a : α}
  {queue rest : List α}

-- Whatever is `subject` has a `herald` ahead of it in the queue.
def Heralded (herald subject : α → Prop) : List α → Prop
  | [] => True
  | a :: rest => herald a ∨ ¬ subject a ∧ Heralded herald subject rest

theorem Heralded.of_none (h : ∀ a ∈ queue, ¬ subject a) : Heralded herald subject queue := by
  induction queue with
  | nil => trivial
  | cons a rest ih =>
    exact .inr ⟨h a List.mem_cons_self, ih fun b hb => h b (List.mem_cons_of_mem a hb)⟩

theorem Heralded.concat (h : Heralded herald subject queue)
    (ha : subject a → ∃ b ∈ queue, herald b) : Heralded herald subject (queue ++ [a]) := by
  induction queue with
  | nil =>
    refine .inr ⟨fun hs => ?_, trivial⟩
    obtain ⟨b, hb, -⟩ := ha hs
    cases hb
  | cons b rest ih =>
    by_cases hb : herald b
    · exact .inl hb
    · obtain ⟨hs, hrest⟩ := h.resolve_left hb
      refine .inr ⟨hs, ih hrest fun hsa => ?_⟩
      obtain ⟨c, hc, hherald⟩ := ha hsa
      rcases List.mem_cons.mp hc with rfl | hc
      · exact absurd hherald hb
      · exact ⟨c, hc, hherald⟩

-- A queue to a reader that has to be ready for what is `subject`, and that a `herald` makes
-- ready. `sent` says that a herald was put in.
structure Greets (herald subject : α → Prop) (ready sent : Prop) (queue : List α) : Prop where
  order : ready ∨ Heralded herald subject queue
  under : sent → ready ∨ ∃ a ∈ queue, herald a

theorem Greets.of_none (h : ∀ a ∈ queue, ¬ subject a) (hsent : ¬ sent) :
    Greets herald subject ready sent queue :=
  ⟨.inr (.of_none h), fun hs => absurd hs hsent⟩

theorem Greets.mono (h : Greets herald subject ready sent queue) (hready : ready → ready')
    (hsent : sent' → sent) : Greets herald subject ready' sent' queue :=
  ⟨h.order.imp_left hready, fun hs => (h.under (hsent hs)).imp_left hready⟩

theorem Greets.put (h : Greets herald subject ready sent queue) (ha : subject a → sent)
    (hsent : sent' → sent ∨ herald a) : Greets herald subject ready sent' (queue ++ [a]) := by
  refine ⟨?_, fun hs => ?_⟩
  · by_cases hready : ready
    · exact .inl hready
    · exact .inr ((h.order.resolve_left hready).concat fun hs =>
        (h.under (ha hs)).resolve_left hready)
  · rcases hsent hs with hs | hherald
    · refine (h.under hs).imp_right fun hmem => ?_
      obtain ⟨b, hb, hherald⟩ := hmem
      exact ⟨b, List.mem_append_left _ hb, hherald⟩
    · exact .inr ⟨a, List.mem_append_right _ List.mem_cons_self, hherald⟩

theorem Greets.take (h : Greets herald subject ready sent (a :: rest)) (ha : herald a → ready) :
    Greets herald subject ready sent rest := by
  by_cases hready : ready
  · exact ⟨.inl hready, fun _ => .inl hready⟩
  · have hnot : ¬ herald a := fun hherald => hready (ha hherald)
    refine ⟨.inr ((h.order.resolve_left hready).resolve_left hnot).2, fun hs => .inr ?_⟩
    obtain ⟨b, hb, hherald⟩ := (h.under hs).resolve_left hready
    rcases List.mem_cons.mp hb with rfl | hb
    · exact absurd hherald hnot
    · exact ⟨b, hb, hherald⟩

theorem Greets.ready_of (h : Greets herald subject ready sent (a :: rest)) (hs : subject a)
    (ha : ¬ herald a) : ready :=
  h.order.resolve_right fun horder => (horder.resolve_left ha).1 hs

-- A queue whose writer puts in nothing that is `subject` after the `last` word. `said` says that
-- the last word was put in, `gone` that the reader acts on it.
structure Ends (last subject : α → Prop) (gone said : Prop) (queue : List α) : Prop where
  order : queue.Pairwise fun a b => last a → ¬ subject b
  before : ¬ said → ¬ gone ∧ ∀ a ∈ queue, ¬ last a
  after : gone → ∀ a ∈ queue, ¬ subject a

section

variable {last : α → Prop} {gone gone' said said' : Prop}

theorem Ends.nil (h : ¬ gone) : Ends last subject gone said [] :=
  ⟨.nil, fun _ => ⟨h, by simp⟩, by simp⟩

theorem Ends.mono (h : Ends last subject gone said queue) (hgone : gone' → gone)
    (hsaid : said → said') : Ends last subject gone' said' queue where
  order := h.order
  before hno := ⟨fun ho => (h.before fun hs => hno (hsaid hs)).1 (hgone ho),
    (h.before fun hs => hno (hsaid hs)).2⟩
  after ho := h.after (hgone ho)

theorem Ends.put (h : Ends last subject gone said queue) (ha : subject a → ¬ said)
    (hsaid : said ∨ last a → said') : Ends last subject gone said' (queue ++ [a]) where
  order := by
    refine List.pairwise_append.mpr ⟨h.order, List.pairwise_singleton .., fun b hb c hc hlast => ?_⟩
    rw [List.mem_singleton.mp hc]
    exact fun hs => (h.before (ha hs)).2 b hb hlast
  before hno := by
    obtain ⟨hgone, hqueue⟩ := h.before fun hs => hno (hsaid (.inl hs))
    refine ⟨hgone, fun b hb => ?_⟩
    rcases List.mem_append.mp hb with hb | hb
    · exact hqueue b hb
    · rw [List.mem_singleton.mp hb]
      exact fun hlast => hno (hsaid (.inr hlast))
  after hgone b hb hs := by
    rcases List.mem_append.mp hb with hb | hb
    · exact h.after hgone b hb hs
    · rw [List.mem_singleton.mp hb] at hs
      exact (h.before (ha hs)).1 hgone

theorem Ends.take (h : Ends last subject gone said (a :: rest)) (hgone : gone' → gone ∨ last a) :
    Ends last subject gone' said rest where
  order := (List.pairwise_cons.mp h.order).2
  before hno := by
    obtain ⟨hfirst, hqueue⟩ := h.before hno
    exact ⟨fun ho => (hgone ho).elim hfirst (hqueue a List.mem_cons_self),
      fun b hb => hqueue b (List.mem_cons_of_mem a hb)⟩
  after ho b hb := by
    rcases hgone ho with hold | hlast
    · exact h.after hold b (List.mem_cons_of_mem a hb)
    · exact (List.pairwise_cons.mp h.order).1 b hb hlast

end

end

end Fifo
