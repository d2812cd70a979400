import Decommission.Proofs.Events
import Decommission.Proofs.Play

/-!
# Rounds

A round is a few moves in a row, in which everybody gets a turn.  If something becomes
less in every round in which no report is taken, it becomes less and less as rounds go
by, however the reports that are taken are spread over them (`play_rounds`).
-/

namespace Decommission

/-- The number of reports taken. -/
def History.receipts (h : History) : Nat := h.countP (·.event == .received)

theorem History.receipts_append (h k : History) :
    receipts (h ++ k) = receipts h + receipts k := List.countP_append

theorem History.receipts_pos {k : History} {x : Entry} (hx : x ∈ k) (he : x.event = .received) :
    0 < receipts k := List.countP_pos_iff.mpr ⟨x, hx, beq_iff_eq.mpr he⟩

/-- What happens at a certain millisecond takes a report only if one of the events does. -/
theorem History.received_notMem {es : List Event} {now : Nat}
    (h : receipts (es.map (⟨now, none, ·⟩)) = 0) : .received ∉ es := fun hmem =>
  Nat.ne_of_gt (receipts_pos (List.mem_map.mpr ⟨_, hmem, rfl⟩) rfl) h

variable {σ μ ρ : Type} {step? : μ → σ → Option (History × σ)} {effort : σ → Nat}
  {P : History → σ → Prop} {moves : ρ → List μ}

/-- Every round counts in which no report is taken. -/
theorem play_rounds {rs : List ρ}
    (hround : ∀ r ∈ rs, ∀ h s, P h s → ∃ k s',
      play (recorded step?) (h, s) (moves r) = (h ++ k, s') ∧ P (h ++ k) s' ∧
        effort s' ≤ effort s ∧ (k.receipts = 0 → effort s' ≤ effort s - 1))
    {h : History} {s : σ} (hp : P h s) :
    ∃ k s', play (recorded step?) (h, s) (rs.flatMap moves) = (h ++ k, s') ∧ P (h ++ k) s' ∧
      effort s' ≤ effort s - (rs.length - k.receipts) := by
  induction rs generalizing h s with
  | nil => exact ⟨[], s, by rw [List.append_nil]; rfl, by rwa [List.append_nil], Nat.le_refl _⟩
  | cons r rs ih =>
      obtain ⟨k, s₁, hplay, hp₁, hle, hlt⟩ := hround r (List.mem_cons_self ..) h s hp
      obtain ⟨k', s', hrest, hp', hle'⟩ := ih (fun r hr => hround r (List.mem_cons_of_mem _ hr)) hp₁
      refine ⟨k ++ k', s', ?_, List.append_assoc h k k' ▸ hp', ?_⟩
      · rw [List.flatMap_cons, play_append, hplay, hrest, List.append_assoc]
      · rw [History.receipts_append, List.length_cons]
        rcases Nat.eq_zero_or_pos k.receipts with hzero | hpos
        · have hless := hlt hzero
          omega
        · omega

end Decommission
