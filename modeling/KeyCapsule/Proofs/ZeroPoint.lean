import KeyCapsule.KeyAgreement
import Mathlib.Tactic.Ring

/-! The coordinate zero. Every multiple of it is zero or the point at infinity, so no private key agrees with
it. -/
namespace KeyCapsule

namespace Ladder

/-- A fraction of the point at infinity, or the coordinate zero as a ladder begins with it. -/
def Null (x z : Nat) : Prop := z = 0 ∨ x = 0 ∧ z = 1

private theorem step_null {p : Nat} (hp : 1 < p) (a : Nat) {r : Rung} (h : Null r.x₂ r.z₂) :
    (r.step p a 0).z₂ = 0 ∧ (r.step p a 0).z₃ = 0 := by
  have hsquare : (r.x₂ + r.z₂) * (r.x₂ + r.z₂) % p = (r.x₂ + p - r.z₂) * (r.x₂ + p - r.z₂) % p := by
    rcases h with hz | ⟨hx, hz⟩
    · rw [hz, Nat.add_zero, Nat.sub_zero, Nat.mul_mod (r.x₂ + p), Nat.add_mod_right, ← Nat.mul_mod]
    · obtain ⟨q, rfl⟩ : ∃ q, p = q + 2 := ⟨p - 2, by omega⟩
      have hd : 0 + (q + 2) - 1 = q + 1 := by omega
      have hs : (q + 1) * (q + 1) = 1 + (q + 2) * q := by ring
      rw [hx, hz, hd, hs, Nat.add_mul_mod_self_left]
  refine ⟨?_, ?_⟩
  · simp only [Rung.step, hsquare, Nat.add_sub_cancel_left, Nat.mul_mod_right]
  · simp only [Rung.step, Nat.mul_zero, Nat.zero_mod]

private theorem climb_null {p : Nat} (hp : 1 < p) (a k : Nat) {n : Nat} (hn : 0 < n) {r : Rung}
    (h₂ : Null r.x₂ r.z₂) (h₃ : Null r.x₃ r.z₃) : (climb p a 0 k n r).z₂ = 0 := by
  induction n generalizing r with
  | zero => cases hn
  | succ n ih =>
    have hstep : ∃ r' : Rung, climb p a 0 k (n + 1) r = climb p a 0 k n r' ∧ r'.z₂ = 0 ∧ r'.z₃ = 0 := by
      rw [climb]
      split
      · exact ⟨_, rfl, (step_null hp a (r := r.swap) h₃).symm⟩
      · exact ⟨_, rfl, step_null hp a h₂⟩
    obtain ⟨r', hr, h₂, h₃⟩ := hstep
    rw [hr]
    cases n with
    | zero => exact h₂
    | succ n => exact ih n.succ_pos (.inl h₂) (.inl h₃)

/-- No multiple of the coordinate zero is another one. -/
private theorem multiply_zero (l : Ladder) (k : Nat) : l.multiply k 0 = 0 := by
  have hp : 1 < l.modulus ∧ PrimeCurve.inverse l.modulus 0 = 0 := by cases l <;> decide +kernel
  have hn : 0 < l.digits := by cases l <;> decide
  have hz : (climb l.modulus l.constant 0 k l.digits ⟨1, 0, 0, 1⟩).z₂ = 0 :=
    climb_null hp.1 _ k hn (.inl rfl) (.inr ⟨rfl, rfl⟩)
  rw [multiply]
  simp only [hz, hp.2, Nat.mul_zero, Nat.zero_mod]

private theorem coordinate_zeros (l : Ladder) : l.coordinate (Bytes.zeros l.size) = 0 := by
  cases l <;> decide +kernel

end Ladder

namespace DhKem
open KeyAgreement (standard)

def zeroPoint (l : Ladder) : PublicKey := .coordinate l ⟨Bytes.zeros l.size, Bytes.length_zeros l.size⟩

theorem exchange_zeroPoint (l : Ladder) (k : PrivateKey) : standard.exchange k (zeroPoint l) = none := by
  cases k with
  | scalar c k => rfl
  | seed m s =>
    change (if l = m then _ else none) = none
    split
    · next h =>
      subst h
      exact if_pos (by rw [Ladder.coordinate_zeros, Ladder.multiply_zero])
    · rfl

end DhKem
end KeyCapsule
