import KeyCapsule.DhKem
import KeyCapsule.Proofs.Action

/-! The five built-in suites, one for each group. Their keys stay in the group, agreement on such keys is
decided by the curve arithmetic alone, and whatever is no public key of the group is a refused value. -/
namespace KeyCapsule
open Hkdf.Labeled (label)

namespace Group

def digest : Group → Digest
  | .prime .p256 | .ladder .x25519 => .sha256
  | .prime .p384 => .sha384
  | .prime .p521 | .ladder .x448 => .sha512

def kemId : Group → Nat
  | .prime .p256 => 0x10
  | .prime .p384 => 0x11
  | .prime .p521 => 0x12
  | .ladder .x25519 => 0x20
  | .ladder .x448 => 0x21

def secretSize (g : Group) : Nat := g.digest.size

def identifier (g : Group) : Bytes := label "KEM" ++ Bytes.ofNatBE 2 g.kemId

private theorem forall_iff {p : Group → Prop} :
    (∀ g, p g) ↔ p (.prime .p256) ∧ p (.prime .p384) ∧ p (.prime .p521) ∧ p (.ladder .x25519) ∧
      p (.ladder .x448) := by
  refine ⟨fun h => ⟨h _, h _, h _, h _, h _⟩, fun ⟨h₁, h₂, h₃, h₄, h₅⟩ g => ?_⟩
  cases g with
  | prime c => cases c <;> assumption
  | ladder l => cases l <;> assumption

instance (p : Group → Prop) [DecidablePred p] : Decidable (∀ g, p g) :=
  decidable_of_iff _ forall_iff.symm

@[simp] theorem length_identifier (g : Group) : g.identifier.length = 5 := by
  simp [identifier, label]

theorem identifier_injective {g h : Group} (he : g.identifier = h.identifier) : g = h := by
  have all : ∀ g h : Group, g.identifier = h.identifier → g = h := by decide +kernel
  exact all g h he

end Group

namespace Suite

private theorem kemId_ofGroup (g : Group) : (ofGroup g).kemId = g.kemId := by
  revert g
  decide

theorem secretSize_ofGroup (g : Group) : (ofGroup g).secretSize = g.secretSize := by
  revert g
  decide

theorem encapsulationSize_ofGroup (g : Group) : (ofGroup g).encapsulationSize = g.encodedSize := by
  revert g
  decide

theorem named?_ofGroup (g : Group) : Digest.named? (ofGroup g).digest = some g.digest := by
  revert g
  decide +kernel

theorem verbatim?_ofGroup (g : Group) : Digest.verbatim? (ofGroup g).digest = some g.digest := by
  revert g
  decide +kernel

@[simp] theorem digest_derivation (s : Suite) : s.derivation.digest = .text s.digest := rfl

@[simp] theorem secretSize_derivation (s : Suite) : s.derivation.secretSize = .int s.secretSize := rfl

theorem id_ofGroup (g : Group) : (ofGroup g).id = .ok g.identifier := by
  have hk : ∀ g : Group, g.kemId < 0x10000 := by decide
  have hf := Hkdf.Labeled.field_int (hk g)
  rw [Suite.id, Derivation.id, derivation, kemId_ofGroup]
  simp only [hf]
  rfl

/-- The rule by which a group's suite makes its keys. -/
theorem keys_ofGroup (g : Group) : (ofGroup g).keys = match g with
    | .prime c => .sampled c
    | .ladder l => .expanded l := by
  cases g with
  | prime c => cases c <;> rfl
  | ladder l => cases l <;> rfl

end Suite

namespace Group

private theorem group_scalar? {c : PrimeCurve} {n : Nat} {k : PrivateKey} (h : scalar? c n = some k) :
    k.group = .prime c := by
  unfold scalar? at h
  split at h <;> cases h
  rfl

private theorem group_seed? {l : Ladder} {b : Bytes} {k : PrivateKey} (h : seed? l b = some k) :
    k.group = .ladder l := by
  unfold seed? at h
  split at h <;> cases h
  rfl

end Group

namespace KeyRule

private theorem decode_bytes (g : Group) (b : Bytes) :
    decode g (.bytes b) = match g.decode? b with
      | some k => .ok k
      | none => .error Fault.badValue := by
  simp only [decode, keyBytes, bind, Except.bind]
  cases g.decode? b <;> rfl

theorem checkMark_cons (mark : UInt8) (rest : Bytes) :
    checkMark (.bytes (mark :: rest)) =
      if mark = 4 then .ok () else .error .compressedPoint := by
  have hs := Datum.slice_bytes_of_le (b := mark :: rest) (Nat.zero_le 1) (by simp)
  have hn : (Datum.bytes (mark :: rest)).slice .none (.int 1) = .ok (.bytes [mark]) := hs
  rw [checkMark, hn]
  by_cases hm : mark = 4
  · subst hm
    rfl
  · have he : (Datum.bytes [mark]).equals (.bytes [4]) = false := by simp [hm]
    rw [if_neg hm]
    simp only [bind, Except.bind, he]
    rfl

private theorem group_scalarKey {c : PrimeCurve} {n : Nat} {k : PrivateKey}
    (h : (sampled c).scalarKey n = .ok k) : k.group = .prime c := by
  simp only [scalarKey] at h
  split at h
  case h_1 hs =>
    cases h
    exact Group.group_scalar? hs
  case h_2 => cases h

private theorem group_seedKey {l : Ladder} {b : Bytes} {k : PrivateKey} (h : seedKey l b = .ok k) :
    k.group = .ladder l := by
  unfold seedKey at h
  split at h
  case h_1 hs =>
    cases h
    exact Group.group_seed? hs
  case h_2 => cases h

end KeyRule

namespace Derivation

private theorem group_sample {d : Derivation} {c : PrimeCurve} (hd : d.keys = .sampled c) {id key : Bytes}
    {tries counter : Nat} {k : PrivateKey} (h : d.sample id key tries counter = .ok k) :
    k.group = .prime c := by
  -- on the tries left; the counter moves on with every candidate that is turned down
  induction tries generalizing counter with
  | zero => cases h
  | succ tries ih =>
    obtain ⟨n, -, hn⟩ := bind_eq_ok.1 h
    split at hn
    · rw [hd] at hn
      exact KeyRule.group_scalarKey hn
    · exact ih hn

end Derivation

namespace Suite

theorem group_deriveKey {g : Group} {material : Datum} {k : PrivateKey}
    (h : (ofGroup g).deriveKey material = .ok k) : k.group = g := by
  obtain ⟨id, -, h⟩ := bind_eq_ok.1 h
  obtain ⟨key, -, h⟩ := bind_eq_ok.1 h
  have hk : (ofGroup g).derivation.keys = _ := keys_ofGroup g
  cases g with
  | prime c =>
    simp only [hk] at h
    exact Derivation.group_sample hk h
  | ladder l =>
    simp only [hk] at h
    obtain ⟨b, -, h⟩ := bind_eq_ok.1 h
    exact KeyRule.group_seedKey h

/-- Agreement on two keys of the group is the curve arithmetic's answer. -/
theorem agree_ofGroup (ka : KeyAgreement) {g : Group} {a : PrivateKey} {b : PublicKey}
    (ha : a.group = g) (hb : b.group = g) :
    (ofGroup g).agree ka a b = match ka.exchange a b with
      | some agreed => .ok agreed
      | none => .error Fault.badValue := by
  have hr : (ofGroup g).agree ka a b = KeyRule.agree.accepted ka a b := by
    cases g <;> simp only [agree, KeyRule.agree, keys_ofGroup, ha, hb, if_true]
  rw [hr]
  cases hx : ka.exchange a b with
  | some agreed => simp only [KeyRule.agree.accepted, hx]
  | none => simp only [KeyRule.agree.accepted, hx]

/-- Reading a public key is decoding. What does not decode is a refused value, be it the mark in front
of a point or the bytes behind it. -/
theorem readPublic_ofGroup (g : Group) (b : Bytes) :
    match g.decode? b with
    | some k => (ofGroup g).readPublic b = .ok k
    | none => ∃ e, (ofGroup g).readPublic b = .error e ∧ e.isA .value = true := by
  have unread : ∃ e, (throw Fault.badValue : Except Fault PublicKey) = .error e ∧
      e.isA .value = true := ⟨_, rfl, by decide⟩
  cases g with
  | ladder l =>
    rw [readPublic, keys_ofGroup, KeyRule.readPublic, KeyRule.decode_bytes]
    cases (Group.ladder l).decode? b with
    | some k => rfl
    | none => exact unread
  | prime c =>
    rw [readPublic, keys_ofGroup, KeyRule.readPublic, KeyRule.decode_bytes]
    cases b with
    | nil => exact ⟨.compressedPoint, rfl, by decide⟩
    | cons mark rest =>
      rw [KeyRule.checkMark_cons]
      by_cases hm : mark = 4
      · rw [if_pos hm]
        cases (Group.prime c).decode? (mark :: rest) with
        | some k => rfl
        | none => exact unread
      · -- the mark alone already tells that the bytes are no point
        have hn : (Group.prime c).decode? (mark :: rest) = none := by
          simp [Group.decode?, PrimeCurve.decode?, hm]
        rw [hn, if_neg hm]
        exact ⟨.compressedPoint, rfl, by decide⟩

end Suite

end KeyCapsule
