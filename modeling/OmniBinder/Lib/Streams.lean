/-
Module: OmniBinder.Lib.Streams
Purpose: Writers that share no stream. Each owner holds at most one stream, streams are numbered as they
  are opened, and the log of a stream keeps what every send handed over and how much of it was taken.
Trusted boundary: none
Main exports: SendRecord, Writers.Disciplined.write
-/
import Mathlib.Algebra.Order.Group.Nat
import Mathlib.Data.List.Basic

/-- One send: the frame handed over and the number of its elements that were taken. -/
structure SendRecord (β : Type) where
  frame : List β
  sent : Nat
deriving DecidableEq, Repr

namespace SendRecord

variable {β : Type}

/-- Some of the frame was taken, but not all of it. -/
def Cut (r : SendRecord β) : Prop := 0 < r.sent ∧ r.sent < r.frame.length

instance (r : SendRecord β) : Decidable r.Cut := inferInstanceAs (Decidable (_ ∧ _))

end SendRecord

section Log

variable {β : Type} {IsFrame : List β → Prop} {log : List (SendRecord β)}

/-- What a stream carries after the sends of a log. -/
def streamBytes (log : List (SendRecord β)) : List β := log.flatMap fun r => r.frame.take r.sent

/-- Every send is of a frame, and once one was cut short nothing more is taken. -/
structure Framed (IsFrame : List β → Prop) (log : List (SendRecord β)) : Prop where
  frames : ∀ r ∈ log, IsFrame r.frame
  ends : log.Pairwise fun a b => a.Cut → b.sent = 0

theorem Framed.nil : Framed IsFrame ([] : List (SendRecord β)) :=
  ⟨fun _ h => absurd h List.not_mem_nil, List.Pairwise.nil⟩

theorem Framed.append (h : Framed IsFrame log) {r : SendRecord β} (hr : IsFrame r.frame)
    (hcut : ∀ a ∈ log, ¬ a.Cut) : Framed IsFrame (log ++ [r]) := by
  refine ⟨List.forall_mem_append.mpr ⟨h.frames, List.forall_mem_singleton.mpr hr⟩, ?_⟩
  rw [List.pairwise_append]
  exact ⟨h.ends, List.pairwise_singleton _ _, fun a ha _ _ hc => absurd hc (hcut a ha)⟩

/-- Sends of which nothing was taken leave no trace. -/
theorem streamBytes_of_idle (h : ∀ r ∈ log, r.sent = 0) : streamBytes log = [] := by
  refine List.flatMap_eq_nil_iff.mpr fun r hr => ?_
  rw [h r hr, List.take_zero]

/-- A framed log leaves whole frames on the stream, and behind them at most a part of one more. -/
theorem Framed.stream (h : Framed IsFrame log) :
    ∃ (whole : List (List β)) (tail frame : List β), streamBytes log = whole.flatten ++ tail ∧
      (∀ f ∈ whole, IsFrame f) ∧ (tail = [] ∨ IsFrame frame ∧ tail <+: frame) := by
  induction log with
  | nil => exact ⟨[], [], [], rfl, by simp, .inl rfl⟩
  | cons r log ih =>
    have hends := List.pairwise_cons.mp h.ends
    by_cases hcut : r.Cut
    · -- the stream ends inside this frame
      refine ⟨[], r.frame.take r.sent, r.frame, ?_, by simp,
        .inr ⟨h.frames r List.mem_cons_self, List.take_prefix _ _⟩⟩
      have hidle : streamBytes log = [] :=
        streamBytes_of_idle fun b hb => hends.1 b hb hcut
      rw [streamBytes, List.flatMap_cons, ← streamBytes, hidle, List.append_nil]
      rfl
    · obtain ⟨whole, tail, frame, hstream, hwhole, htail⟩ :=
        ih ⟨fun a ha => h.frames a (List.mem_cons_of_mem _ ha), hends.2⟩
      have hcons : streamBytes (r :: log) = r.frame.take r.sent ++ streamBytes log :=
        List.flatMap_cons
      rcases Nat.eq_zero_or_pos r.sent with hzero | hpos
      · refine ⟨whole, tail, frame, ?_, hwhole, htail⟩
        rw [hcons, hzero, List.take_zero, List.nil_append, hstream]
      have hall : r.frame.length ≤ r.sent := Nat.le_of_not_lt fun hlt => hcut ⟨hpos, hlt⟩
      refine ⟨r.frame :: whole, tail, frame, ?_,
        List.forall_mem_cons.mpr ⟨h.frames r List.mem_cons_self, hwhole⟩, htail⟩
      rw [hcons, hstream, List.take_of_length_le hall, List.flatten_cons, List.append_assoc]

end Log

/-- Owners of numbered streams, and the log of each stream. -/
structure Writers (ω β : Type) where
  holder : ω → Option Nat
  sends : Nat → List (SendRecord β)
  next : Nat

namespace Writers

variable {ω β : Type} {IsFrame : List β → Prop} {w w' : Writers ω β} {marked marked' : ω → Prop}

/-- Streams may be lost, and nothing else happens. -/
structure Shrinks (w w' : Writers ω β) : Prop where
  holder : ∀ o c, w'.holder o = some c → w.holder o = some c
  sends : w'.sends = w.sends
  next : w'.next = w.next

theorem Shrinks.refl (w : Writers ω β) : w.Shrinks w := ⟨fun _ _ h => h, rfl, rfl⟩

theorem Shrinks.trans {w'' : Writers ω β} (h : w.Shrinks w') (h' : w'.Shrinks w'') : w.Shrinks w'' :=
  ⟨fun o c hc => h.holder o c (h'.holder o c hc), h'.sends.trans h.sends, h'.next.trans h.next⟩

/-- One owner gets a fresh stream. -/
structure Opens (w : Writers ω β) (o : ω) (w' : Writers ω β) : Prop where
  holder : ∀ o' c, w'.holder o' = some c → (o' = o ∧ c = w.next) ∨ w.holder o' = some c
  sends : w'.sends = w.sends
  next : w'.next = w.next + 1

/-- One send on one stream. -/
structure Writes (w : Writers ω β) (c : Nat) (r : SendRecord β) (w' : Writers ω β) : Prop where
  holder : w'.holder = w.holder
  sends : ∀ c', w'.sends c' = if c' = c then w.sends c ++ [r] else w.sends c'
  next : w'.next = w.next

/-- Every log is framed, streams have one owner each, and an owner whose stream ends inside a frame is
    marked. -/
structure Disciplined (IsFrame : List β → Prop) (w : Writers ω β) (marked : ω → Prop) : Prop where
  fresh : ∀ o c, w.holder o = some c → c < w.next
  unwritten : ∀ c, w.next ≤ c → w.sends c = []
  owned : ∀ o o' c, w.holder o = some c → w.holder o' = some c → o = o'
  framed : ∀ c, Framed IsFrame (w.sends c)
  cut : ∀ o c, w.holder o = some c → (∃ r ∈ w.sends c, r.Cut) → marked o

theorem Disciplined.mono (h : Disciplined IsFrame w marked) (hm : ∀ o, marked o → marked' o) :
    Disciplined IsFrame w marked' :=
  ⟨h.fresh, h.unwritten, h.owned, h.framed, fun o c ho hr => hm o (h.cut o c ho hr)⟩

/-- Losing streams keeps the discipline, also when the mark of an owner without a stream is taken
    away. -/
theorem Disciplined.shrink (h : Disciplined IsFrame w marked) (hs : w.Shrinks w')
    (hm : ∀ o, (w'.holder o).isSome → marked o → marked' o) : Disciplined IsFrame w' marked' where
  fresh o c ho := hs.next ▸ h.fresh o c (hs.holder o c ho)
  unwritten c hc := hs.sends ▸ h.unwritten c (hs.next ▸ hc)
  owned o o' c ho ho' := h.owned o o' c (hs.holder o c ho) (hs.holder o' c ho')
  framed c := hs.sends ▸ h.framed c
  cut o c ho hr := hm o (Option.isSome_of_eq_some ho) (h.cut o c (hs.holder o c ho) (hs.sends ▸ hr))

theorem Disciplined.opened {o : ω} (h : Disciplined IsFrame w marked) (hs : w.Opens o w') :
    Disciplined IsFrame w' marked where
  fresh o' c ho := by
    rw [hs.next]
    rcases hs.holder o' c ho with ⟨_, rfl⟩ | hold
    · exact Nat.lt_succ_self _
    · exact Nat.lt_succ_of_lt (h.fresh o' c hold)
  unwritten c hc := hs.sends ▸ h.unwritten c (Nat.le_of_succ_le (hs.next.symm.trans_le hc))
  owned o' o'' c ho ho' := by
    rcases hs.holder o' c ho with ⟨heq, hc⟩ | hold <;>
      rcases hs.holder o'' c ho' with ⟨heq', hc'⟩ | hold'
    · exact heq.trans heq'.symm
    · exact absurd (h.fresh o'' c hold') (hc ▸ Nat.lt_irrefl _)
    · exact absurd (h.fresh o' c hold) (hc' ▸ Nat.lt_irrefl _)
    · exact h.owned o' o'' c hold hold'
  framed c := hs.sends ▸ h.framed c
  cut o' c ho hr := by
    rw [hs.sends] at hr
    rcases hs.holder o' c ho with ⟨_, rfl⟩ | hold
    · -- nothing was ever sent on a stream that is only now opened
      obtain ⟨r, hmem, _⟩ := hr
      rw [h.unwritten _ (Nat.le_refl _)] at hmem
      exact absurd hmem List.not_mem_nil
    · exact h.cut o' c hold hr

/-- An unmarked owner writes; if its frame is cut short the owner has to be marked. -/
theorem Disciplined.write {o : ω} {c : Nat} {r : SendRecord β} (h : Disciplined IsFrame w marked)
    (hs : w.Writes c r w') (ho : w.holder o = some c) (hmark : ¬ marked o)
    (hr : IsFrame r.frame) : Disciplined IsFrame w' fun o' => marked o' ∨ o' = o ∧ r.Cut where
  fresh o' c' ho' := hs.next ▸ h.fresh o' c' (hs.holder ▸ ho')
  unwritten c' hc' := by
    rw [hs.next] at hc'
    have hne : c' ≠ c := fun heq => absurd (h.fresh o c ho) (Nat.not_lt.mpr (heq ▸ hc'))
    rw [hs.sends, if_neg hne]
    exact h.unwritten c' hc'
  owned o' o'' c' ho' ho'' := h.owned o' o'' c' (hs.holder ▸ ho') (hs.holder ▸ ho'')
  framed c' := by
    rw [hs.sends]
    by_cases hc : c' = c
    · rw [if_pos hc]
      exact (h.framed c).append hr fun a ha hcut => hmark (h.cut o c ho ⟨a, ha, hcut⟩)
    · rw [if_neg hc]
      exact h.framed c'
  cut o' c' ho' hcut := by
    rw [hs.holder] at ho'
    obtain ⟨a, ha, hacut⟩ := hcut
    rw [hs.sends] at ha
    by_cases hc : c' = c
    · subst hc
      rw [if_pos rfl] at ha
      have heq : o' = o := h.owned o' o c' ho' ho
      rcases List.mem_append.mp ha with ha | ha
      · exact .inl (h.cut o' c' ho' ⟨a, ha, hacut⟩)
      · rw [List.mem_singleton.mp ha] at hacut
        exact .inr ⟨heq, hacut⟩
    · rw [if_neg hc] at ha
      exact .inl (h.cut o' c' ho' ⟨a, ha, hacut⟩)

end Writers
