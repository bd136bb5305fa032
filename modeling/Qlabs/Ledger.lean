import Mathlib.Data.List.Nodup

/-!
# Ledgers

A *ledger* hands out numbers, and has an entry for each that has not been lost: as long as no
entry is lost (`Ledger.Accounted`), all that was handed out is in the ledger; and a number that
has been lost once does not come back. In any case, there is one entry for a number at most
(`Ledger.Inv`). The order of the entries does not matter: the changes of a ledger are given by
permutations.
-/

namespace Qlabs

/-- How many numbers have been handed out, and those that have not been lost. -/
structure Ledger where
  made : ℕ := 0
  entries : List ℕ := []

namespace Ledger

variable {l l' : Ledger} {ps : List ℕ}

/-- There is one entry at most for a number that was handed out, and none for others. -/
structure Inv (l : Ledger) : Prop where
  nodup : l.entries.Nodup
  lt_made : ∀ p ∈ l.entries, p < l.made

/-- No number is lost. -/
def Accounted (l : Ledger) : Prop := ∀ p < l.made, p ∈ l.entries

/-- The entries are the same. -/
structure Same (l l' : Ledger) : Prop where
  made : l'.made = l.made
  perm : l'.entries.Perm l.entries

/-- The next number is handed out. -/
structure Make (l l' : Ledger) : Prop where
  made : l'.made = l.made + 1
  perm : l'.entries.Perm (l.made :: l.entries)

/-- Numbers are lost. -/
structure Drop (l : Ledger) (ps : List ℕ) (l' : Ledger) : Prop where
  made : l'.made = l.made
  perm : l.entries.Perm (ps ++ l'.entries)

/-- The next number is handed out, and lost at once. -/
structure Skip (l l' : Ledger) : Prop where
  made : l'.made = l.made + 1
  perm : l'.entries.Perm l.entries

theorem inv_empty : Inv {} := ⟨List.nodup_nil, by simp⟩

theorem Same.inv (h : Same l l') (hl : l.Inv) : l'.Inv where
  nodup := h.perm.nodup_iff.2 hl.nodup
  lt_made p hp := h.made ▸ hl.lt_made p (h.perm.mem_iff.1 hp)

theorem Same.accounted (h : Same l l') : l'.Accounted ↔ l.Accounted := by
  simp only [Accounted, h.made, h.perm.mem_iff]

theorem Make.inv (h : Make l l') (hl : l.Inv) : l'.Inv where
  nodup := h.perm.nodup_iff.2 (List.nodup_cons.2
    ⟨fun hp => absurd (hl.lt_made _ hp) (Nat.lt_irrefl _), hl.nodup⟩)
  lt_made p hp := by
    rw [h.made]
    rcases List.mem_cons.1 (h.perm.mem_iff.1 hp) with rfl | hp
    · exact Nat.lt_succ_self _
    · exact Nat.lt_succ_of_lt (hl.lt_made p hp)

theorem Make.accounted (h : Make l l') : l'.Accounted ↔ l.Accounted := by
  simp only [Accounted, h.made, h.perm.mem_iff, List.mem_cons]
  refine ⟨fun hl p hp => ?_, fun hl p hp => ?_⟩
  · exact (hl p (Nat.lt_succ_of_lt hp)).resolve_left (Nat.ne_of_lt hp)
  · exact (Nat.lt_succ_iff_lt_or_eq.1 hp).elim (fun hp => .inr (hl p hp)) .inl

theorem Skip.inv (h : Skip l l') (hl : l.Inv) : l'.Inv where
  nodup := h.perm.nodup_iff.2 hl.nodup
  lt_made p hp := h.made ▸ Nat.lt_succ_of_lt (hl.lt_made p (h.perm.mem_iff.1 hp))

theorem Drop.inv (h : Drop l ps l') (hl : l.Inv) : l'.Inv where
  nodup := (List.nodup_append.1 (h.perm.nodup_iff.1 hl.nodup)).2.1
  lt_made q hq := h.made ▸ hl.lt_made q (h.perm.mem_iff.2 (List.mem_append_right _ hq))

theorem Drop.not_accounted (h : Drop l ps l') (hps : ps ≠ []) (hl : l.Inv) : ¬l'.Accounted := by
  obtain ⟨p, ps, rfl⟩ := List.exists_cons_of_ne_nil hps
  intro h'
  have hp : p < l'.made := h.made ▸ hl.lt_made p (h.perm.mem_iff.2 (List.mem_cons_self ..))
  exact (List.nodup_cons.1 (h.perm.nodup_iff.1 hl.nodup)).1 (List.mem_append_right _ (h' p hp))

end Ledger

end Qlabs
