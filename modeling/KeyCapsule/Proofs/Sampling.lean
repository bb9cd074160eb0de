import Mathlib.Data.Int.Bitwise
import Mathlib.Data.List.Induction
import Mathlib.Tactic.Ring
import KeyCapsule.Proofs.Standard
import KeyCapsule.Proofs.Suite

/-! Private keys drawn from keying material under a suite of any description. Candidates are numbered, and the
first that lies strictly between zero and the order is the key; this is the loop of the standard. -/
namespace KeyCapsule
open Hkdf.Labeled (label)

namespace Bytes

private theorem getElem_ofNatLE (width n i : Nat) (h : i < (ofNatLE width n).length) :
    (ofNatLE width n)[i] = UInt8.ofNat (n / 256 ^ i) := by
  induction width generalizing n i with
  | zero => simp [ofNatLE] at h
  | succ width ih =>
    cases i with
    | zero => simp [ofNatLE]
    | succ i =>
      simp only [ofNatLE, List.getElem_cons_succ]
      rw [ih, Nat.div_div_eq_div_mul, Nat.pow_succ']

end Bytes

namespace Standard

theorem i2osp_eq (n width : Nat) : i2osp n width = Bytes.ofNatBE width n := by
  apply List.ext_getElem
  · simp [i2osp]
  · intro i h₁ h₂
    simp only [i2osp, List.getElem_map, List.getElem_range, Bytes.ofNatBE, List.getElem_reverse,
      Bytes.getElem_ofNatLE, Bytes.length_ofNatLE]

theorem os2ip_eq (b : Bytes) : os2ip b = Bytes.toNatBE b := by
  induction b using List.reverseRecOn with
  | nil => rfl
  | append_singleton b x ih =>
    rw [os2ip, List.foldl_append, ← os2ip, ih, Bytes.toNatBE, Bytes.toNatBE, List.reverse_append]
    simp only [List.foldl_cons, List.foldl_nil, List.reverse_singleton, List.singleton_append,
      Bytes.toNatLE]
    omega

private theorem extract_eq (h : Digest) (salt material : Bytes) :
    extract h salt material = Hkdf.extract h salt material := by
  cases salt <;> rfl

private theorem blocks_eq (h : Digest) (key info : Bytes) (count i : Nat) :
    Hkdf.blocks h key info count (i + 1) (block h key info i) =
      ((List.range' i count).map fun j => block h key info (j + 1)).flatten := by
  induction count generalizing i with
  | zero => rfl
  | succ count ih =>
    rw [Hkdf.blocks, List.range'_succ, List.map_cons, List.flatten_cons, ← ih]
    rfl

private theorem expand_eq (h : Digest) (key info : Bytes) (length : Nat) :
    expand h key info length = Hkdf.expand h key info length := by
  have hb := blocks_eq h key info ((length + h.size - 1) / h.size) 0
  rw [block, Nat.zero_add] at hb
  rw [expand, Hkdf.expand, hb, List.range_eq_range']

def labels : List String := ["HPKE-v1", "KEM", "eae_prk", "shared_secret", "dkp_prk", "sk", "candidate"]

private theorem octets_label : ∀ s ∈ labels, octets s = label s := by decide +kernel

private theorem foldl_octets (n : Nat) (b : Bytes) :
    b.foldl (fun n x => 256 * n + x.toNat) n = n * 256 ^ b.length + os2ip b := by
  induction b generalizing n with
  | nil => simp [os2ip]
  | cons x rest ih =>
    have hos : os2ip (x :: rest) = (256 * 0 + x.toNat) * 256 ^ rest.length + os2ip rest := ih _
    rw [List.foldl_cons, ih, hos, List.length_cons, Nat.pow_succ']
    ring

private theorem os2ip_cons (x : UInt8) (rest : Bytes) :
    os2ip (x :: rest) = x.toNat * 256 ^ rest.length + os2ip rest := by
  rw [os2ip, List.foldl_cons, foldl_octets, Nat.mul_zero, Nat.zero_add]

namespace Parameters

theorem suiteId_label (p : Parameters) : p.suiteId = label "KEM" ++ Bytes.ofNatBE 2 p.kemId := by
  rw [suiteId, i2osp_eq, octets_label "KEM" (by decide)]

theorem labeledExtract_material (p : Parameters) {s : String} (hs : s ∈ labels) (material : Bytes) :
    p.labeledExtract [] s material =
      Hkdf.extract p.hash [] (Hkdf.Labeled.material p.suiteId (label s) material) := by
  rw [labeledExtract, extract_eq, octets_label _ hs, octets_label "HPKE-v1" (by decide)]
  rfl

theorem labeledExpand_info (p : Parameters) {s : String} (hs : s ∈ labels) (key info : Bytes) (length : Nat) :
    p.labeledExpand key s info length =
      Hkdf.expand p.hash key (Hkdf.Labeled.info length p.suiteId (label s) info) length := by
  rw [labeledExpand, expand_eq, i2osp_eq, octets_label _ hs, octets_label "HPKE-v1" (by decide)]
  rfl

theorem hash_eq (g : Group) : (parameters g).hash = g.digest := by
  revert g
  decide

theorem privateKeySize_eq (g : Group) :
    (Suite.ofGroup g).privateKeySize = (parameters g).privateKeySize := by
  revert g
  decide

/-- The number of a candidate: its octets, the first of them ANDed with the mask, read as one number. -/
def drawn (p : Parameters) (mask : Int) (key : Bytes) (counter : Nat) : Nat :=
  match p.labeledExpand key "candidate" (i2osp counter 1) p.privateKeySize with
  | [] => 0
  | first :: rest => (Int.land first.toNat mask).toNat * 256 ^ rest.length + os2ip rest

end Parameters
end Standard

/-! Masks. -/

private theorem testBit_eight {x i : Nat} (hx : x < 2 ^ 8) (hi : ¬ i < 8) : x.testBit i = false :=
  Nat.testBit_lt_two_pow (Nat.lt_of_lt_of_le hx (Nat.pow_le_pow_right (by decide) (Nat.le_of_not_lt hi)))

/-- Of a mask of any sign only the lowest eight digits matter. -/
private theorem and_mask (x : UInt8) (mask : Int) :
    ((x &&& UInt8.ofNat (mask % 256).toNat).toNat : Int) = Int.land x.toNat mask := by
  have hx : x.toNat < 2 ^ 8 := x.toNat_lt
  have hm : ((x &&& UInt8.ofNat (mask % 256).toNat).toNat : Int) =
      (x.toNat &&& (mask % 256).toNat : Nat) := by
    rw [UInt8.toNat_and, UInt8.toNat_ofNat', Nat.mod_eq_of_lt (by omega)]
  rw [hm]
  cases mask with
  | ofNat n =>
    have hn : (Int.ofNat n % 256).toNat = n % 2 ^ 8 := by
      simp only [Int.ofNat_eq_natCast]
      omega
    have he : x.toNat &&& n % 2 ^ 8 = x.toNat &&& n := by
      apply Nat.eq_of_testBit_eq
      intro i
      rw [Nat.testBit_and, Nat.testBit_and, Nat.testBit_mod_two_pow]
      by_cases hi : i < 8
      · simp [hi]
      · simp [testBit_eight hx hi]
    rw [hn, he]
    rfl
  | negSucc n =>
    have hn : (Int.negSucc n % 256).toNat = 2 ^ 8 - (n % 2 ^ 8 + 1) := by
      rw [Int.negSucc_eq]
      omega
    have he : x.toNat &&& (2 ^ 8 - (n % 2 ^ 8 + 1)) = x.toNat.ldiff n := by
      apply Nat.eq_of_testBit_eq
      intro i
      rw [Nat.testBit_and, Nat.testBit_ldiff, Nat.testBit_two_pow_sub_succ (Nat.mod_lt _ (by decide)),
        Nat.testBit_mod_two_pow]
      by_cases hi : i < 8
      · simp [hi]
      · simp [testBit_eight hx hi]
    rw [hn, he]
    rfl

private theorem Standard.Parameters.drawn_eq (p : Standard.Parameters) (mask : Int) (key : Bytes)
    (counter : Nat) :
    p.drawn mask key counter = p.candidate (UInt8.ofNat (mask % 256).toNat) key counter := by
  rw [drawn, candidate]
  cases p.labeledExpand key "candidate" (Standard.i2osp counter 1) p.privateKeySize with
  | nil => rfl
  | cons first rest =>
    simp only [Standard.os2ip_cons]
    rw [← and_mask, Int.toNat_natCast]

private theorem Digest.named?_of_verbatim? {name : String} {h : Digest} (hn : verbatim? name = some h) :
    named? name = some h := by
  unfold verbatim? at hn
  split at hn <;> cases hn <;> decide +kernel

open Standard

/-- A description whose fields can serve: a two-byte identifier, a digest under its exact name, and a size of
private keys that an expansion reaches. -/
structure Described (d : Derivation) (p : Parameters) (name : String) : Prop where
  kemId : d.kemId = .int p.kemId
  kemId_lt : p.kemId < 0x10000
  digest : d.digest = .text name
  hash : Digest.verbatim? name = some p.hash
  privateKeySize : d.privateKeySize = .int p.privateKeySize
  size_pos : 1 ≤ p.privateKeySize
  size_le : p.privateKeySize ≤ 255 * p.hash.size

namespace Described
variable {d : Derivation} {p : Parameters} {name : String} (h : Described d p name)
include h

theorem id : d.id = .ok p.suiteId := by
  rw [Derivation.id, h.kemId, Hkdf.Labeled.field_int h.kemId_lt, Parameters.suiteId_label]
  rfl

theorem extract {s : String} (hs : s ∈ labels) (material : Bytes) :
    Hkdf.Labeled.extract d.digest p.suiteId (.bytes []) (label s) (.bytes material) =
      .ok (p.labeledExtract [] s material) := by
  rw [h.digest, p.labeledExtract_material hs]
  exact Hkdf.Labeled.extract_bytes (Digest.named?_of_verbatim? h.hash) _ _ _ _

theorem expand {s : String} (hs : s ∈ labels) (key info : Bytes) :
    Hkdf.Labeled.expand d.digest p.suiteId key (label s) info d.privateKeySize =
      .ok (p.labeledExpand key s info p.privateKeySize) := by
  rw [h.digest, h.privateKeySize, p.labeledExpand_info hs]
  exact Hkdf.Labeled.expand_bytes h.hash _ _ _ _ h.size_le

/-- A candidate is as long as a private key, so it has a first byte to be masked. -/
theorem candidate {mask : Int} (hm : d.bitmask = .int mask) (key : Bytes) (counter : Nat) :
    d.candidate p.suiteId key counter = .ok (p.drawn mask key counter) := by
  have hi : i2osp counter 1 = [UInt8.ofNat counter] := by simp [i2osp]
  have hx := h.expand (s := "candidate") (by decide) key [UInt8.ofNat counter]
  have hl : (p.labeledExpand key "candidate" [UInt8.ofNat counter] p.privateKeySize).length =
      p.privateKeySize := length_expand ..
  rw [Derivation.candidate, hx, ok_bind, Parameters.drawn_eq, Parameters.candidate, hi]
  cases hb : p.labeledExpand key "candidate" [UInt8.ofNat counter] p.privateKeySize with
  | nil =>
    rw [hb, List.length_nil] at hl
    exact absurd hl (Nat.ne_of_lt h.size_pos)
  | cons first rest => simp only [Derivation.masked, hm, Datum.integer?_int, os2ip_eq]

end Described

namespace Derivation

/-- A number that may serve as a private key. -/
def Accepts (d : Derivation) (n : Nat) : Prop := 0 < n ∧ (n : Int) < d.order

variable {d : Derivation} {c : PrimeCurve}

private theorem scalarKey_of_accepts (hk : d.keys = .sampled c) (hc : d.order ≤ c.order) {n : Nat}
    (hn : d.Accepts n) :
    ∃ k, d.keys.scalarKey n = .ok (.scalar c k) ∧ k.val = n := by
  have hs : 0 < n ∧ n < c.order := ⟨hn.1, by have := hn.2; omega⟩
  exact ⟨⟨n, hs⟩, by rw [hk, KeyRule.scalarKey, Group.scalar?, dif_pos hs], rfl⟩

section Candidates
variable {id key : Bytes} {candidate : Nat → Nat}
  (hd : ∀ counter ≤ 255, d.candidate id key counter = .ok (candidate counter))
include hd

private theorem sample_accepted {tries counter : Nat} (ht : tries + 1 + counter = 256)
    (ha : d.Accepts (candidate counter)) :
    d.sample id key (tries + 1) counter = d.keys.scalarKey (candidate counter) := by
  rw [sample, hd counter (by omega), ok_bind]
  exact if_pos ha

private theorem sample_rejected {tries counter : Nat} (ht : tries + 1 + counter = 256)
    (ha : ¬ d.Accepts (candidate counter)) :
    d.sample id key (tries + 1) counter = d.sample id key tries (counter + 1) := by
  rw [sample, hd counter (by omega), ok_bind]
  exact if_neg ha

/-- From a counter on the first candidate that is accepted is the key; without one there is no key. -/
private theorem sample_first (hk : d.keys = .sampled c) (hc : d.order ≤ c.order) {tries counter : Nat}
    (ht : tries + counter = 256) :
    (∃ i k, counter ≤ i ∧ i ≤ 255 ∧ d.Accepts (candidate i) ∧
        (∀ j, counter ≤ j → j < i → ¬ d.Accepts (candidate j)) ∧
        d.sample id key tries counter = .ok (.scalar c k) ∧ k.val = candidate i) ∨
      (∀ i, counter ≤ i → i ≤ 255 → ¬ d.Accepts (candidate i)) ∧
        d.sample id key tries counter = .error .noScalar := by
  -- on the tries left; what was turned down before the counter is not looked at again
  induction tries generalizing counter with
  | zero =>
    refine .inr ⟨fun i hi hle => ?_, rfl⟩
    omega
  | succ tries ih =>
    by_cases ha : d.Accepts (candidate counter)
    · obtain ⟨k, hs, hv⟩ := scalarKey_of_accepts hk hc ha
      refine .inl ⟨counter, k, Nat.le_refl _, by omega, ha, ?_, ?_, hv⟩
      · exact fun j hj hlt => absurd hlt (Nat.not_lt.2 hj)
      rw [sample_accepted hd ht ha, hs]
    · rw [sample_rejected hd ht ha]
      have hrest : tries + (counter + 1) = 256 := by omega
      rcases ih hrest with ⟨i, k, hi, hle, hacc, hfirst, hs, hv⟩ | ⟨hnone, hs⟩
      · refine .inl ⟨i, k, by omega, hle, hacc, fun j hj hlt => ?_, hs, hv⟩
        rcases Nat.eq_or_lt_of_le hj with rfl | hj
        · exact ha
        · exact hfirst j hj hlt
      · refine .inr ⟨fun i hi hle => ?_, hs⟩
        rcases Nat.eq_or_lt_of_le hi with rfl | hi
        · exact ha
        · exact hnone i hi hle

/-- Drawing numbered candidates is the standard's search, from any number that it would replace on. -/
theorem sample_eq_search (hk : d.keys = .sampled c) {order : Nat} (ho : d.order.toNat = order)
    (hc : order ≤ c.order) {tries counter n : Nat} (ht : tries + counter = 256) (hn : n = 0 ∨ order ≤ n) :
    d.sample id key tries counter = match search order candidate n counter with
      | .ok k => .ok (.scalar c ⟨k.val, k.property.1, Nat.lt_of_lt_of_le k.property.2 hc⟩)
      | .error _ => .error .noScalar := by
  -- on the tries left; the counter moves on with every candidate that is turned down
  induction tries generalizing counter n with
  | zero =>
    rw [search, dif_pos hn, if_pos (by omega)]
    rfl
  | succ tries ih =>
    rw [search, dif_pos hn, if_neg (by omega)]
    by_cases ha : d.Accepts (candidate counter)
    · have hs : 0 < candidate counter ∧ candidate counter < c.order := ⟨ha.1, by have := ha.2; omega⟩
      have hkept : ¬ (candidate counter = 0 ∨ order ≤ candidate counter) := by
        have := ha.1
        have := ha.2
        omega
      rw [sample_accepted hd ht ha, search, dif_neg hkept, hk]
      simp only [KeyRule.scalarKey, Group.scalar?, dif_pos hs]
    · have hreplaced : candidate counter = 0 ∨ order ≤ candidate counter := by
        rw [Accepts] at ha
        omega
      rw [sample_rejected hd ht ha]
      exact ih (by omega) hreplaced

end Candidates
end Derivation

namespace Described
variable {d : Derivation} {p : Parameters} {name : String} (h : Described d p name)
include h

/-- With a curve keys are sampled. -/
theorem deriveKey_sampled {c : PrimeCurve} (hk : d.keys = .sampled c) (material : Bytes) :
    d.deriveKey (.bytes material) =
      d.sample p.suiteId (p.labeledExtract [] "dkp_prk" material) 256 0 := by
  rw [Derivation.deriveKey, h.id, ok_bind, h.extract (by decide), ok_bind, hk]

/-- On a ladder the key is one expansion. -/
theorem deriveKey_expanded {l : Ladder} (hk : d.keys = .expanded l) (hl : p.privateKeySize = l.size)
    (material : Bytes) :
    d.deriveKey (.bytes material) = .ok (.seed l ⟨p.labeledExpand (p.labeledExtract [] "dkp_prk" material)
      "sk" [] p.privateKeySize, (length_expand ..).trans hl⟩) := by
  have hsize : (p.labeledExpand (p.labeledExtract [] "dkp_prk" material) "sk" [] p.privateKeySize).length =
      l.size := (length_expand ..).trans hl
  rw [Derivation.deriveKey, h.id, ok_bind, h.extract (by decide), ok_bind, hk]
  simp only [Derivation.expandKey, h.expand (s := "sk") (by decide), ok_bind, KeyRule.seedKey, Group.seed?,
    dif_pos hsize]

end Described

namespace Suite

theorem described (g : Group) : Described (ofGroup g).derivation (parameters g) (ofGroup g).digest where
  kemId := by
    have hk : ∀ g : Group, (ofGroup g).kemId = (parameters g).kemId := by decide
    exact congrArg Datum.int (hk g)
  kemId_lt := by
    revert g
    decide
  digest := rfl
  hash := by
    rw [Parameters.hash_eq]
    exact verbatim?_ofGroup g
  privateKeySize := congrArg Datum.int (Parameters.privateKeySize_eq g)
  size_pos := by
    revert g
    decide
  size_le := by
    revert g
    decide

/-- The masks of the built-in suites are those of the standard. -/
theorem candidate_prime (c : PrimeCurve) (key : Bytes) (counter : Nat) :
    (ofGroup (.prime c)).derivation.candidate (parameters (.prime c)).suiteId key counter =
      .ok ((parameters (.prime c)).candidate (Standard.bitmask c) key counter) := by
  have hm : ∃ mask, (ofGroup (.prime c)).derivation.bitmask = .int mask ∧
      UInt8.ofNat (mask % 256).toNat = Standard.bitmask c := by
    cases c <;> exact ⟨_, rfl, by decide⟩
  obtain ⟨mask, hm, hb⟩ := hm
  rw [(described (.prime c)).candidate hm, Parameters.drawn_eq, hb]

theorem privateKeySize_ladder (l : Ladder) : (parameters (.ladder l)).privateKeySize = l.size := by
  cases l <;> rfl

end Suite

/-- With a curve the private key is the first candidate that is accepted, of 256 at most, and this is what the
loop of the standard comes to; without one there is a runtime error. No number outside the curve's range is
ever handed to it. On the two ladders the key is one expansion. -/
theorem first_candidate_derived :
    (∀ {d : Derivation} {p : Parameters} {name : String} {c : PrimeCurve} {mask : Int},
      Described d p name → d.keys = .sampled c → d.bitmask = .int mask → d.order ≤ c.order →
      ∀ material : Bytes,
        let drawn := p.drawn mask (p.labeledExtract [] "dkp_prk" material)
        let result := d.deriveKey (.bytes material)
        (∀ i ≤ 255, d.Accepts (drawn i) → (∀ j < i, ¬ d.Accepts (drawn j)) →
          ∃ k, result = .ok (.scalar c k) ∧ k.val = drawn i) ∧
        ((∃ e, result = .error e ∧ e.isA .runtime = true) ↔ ∀ i ≤ 255, ¬ d.Accepts (drawn i)) ∧
        (match search d.order.toNat drawn 0 0 with
          | .ok n => ∃ k, result = .ok (.scalar c k) ∧ k.val = n.val
          | .error _ => result = .error .noScalar) ∧
        ∀ n, d.Accepts n → 1 ≤ n ∧ n ≤ c.order - 1 ∧ ∃ k, d.keys.scalarKey n = .ok k) ∧
      ∀ (l : Ladder) (material : Bytes),
        let p := parameters (.ladder l)
        ∃ sk, (Suite.ofGroup (.ladder l)).deriveKey (.bytes material) = .ok (.seed l sk) ∧
          sk.val = p.labeledExpand (p.labeledExtract [] "dkp_prk" material) "sk" [] p.privateKeySize ∧
          (sk.val.length : Int) = (Suite.ofGroup (.ladder l)).privateKeySize := by
  constructor
  · intro d p name c mask h hk hm hc material drawn result
    have hd : ∀ counter ≤ 255, d.candidate p.suiteId (p.labeledExtract [] "dkp_prk" material) counter =
        .ok (drawn counter) := fun counter _ => h.candidate hm _ counter
    have hresult : result = d.sample p.suiteId (p.labeledExtract [] "dkp_prk" material) 256 0 :=
      h.deriveKey_sampled hk material
    have hfirst := Derivation.sample_first hd hk hc (Nat.add_zero 256)
    rw [← hresult] at hfirst
    refine ⟨?_, ?_, ?_, ?_⟩
    · intro i hi ha hless
      rcases hfirst with ⟨j, k, -, hj, hacc, hfirst, hs, hv⟩ | ⟨hnone, -⟩
      · have he : j = i := by
          rcases Nat.lt_trichotomy j i with hlt | rfl | hlt
          · exact absurd hacc (hless j hlt)
          · rfl
          · exact absurd ha (hfirst i (Nat.zero_le i) hlt)
        exact ⟨k, hs, he ▸ hv⟩
      · exact absurd ha (hnone i (Nat.zero_le i) hi)
    · constructor
      · rintro ⟨e, he, -⟩ i hi
        rcases hfirst with ⟨j, k, -, hj, hacc, hfirst, hs, hv⟩ | ⟨hnone, -⟩
        · rw [hs] at he
          cases he
        · exact hnone i (Nat.zero_le i) hi
      · intro hnone
        rcases hfirst with ⟨j, k, -, hj, hacc, -, -, -⟩ | ⟨-, hs⟩
        · exact absurd hacc (hnone j hj)
        · exact ⟨_, hs, rfl⟩
    · have hs := Derivation.sample_eq_search hd hk rfl (Int.toNat_le.2 hc) (Nat.add_zero 256)
        (n := 0) (.inl rfl)
      rw [← hresult] at hs
      cases hx : search d.order.toNat drawn 0 0 with
      | ok n =>
        rw [hx] at hs
        exact ⟨_, hs, rfl⟩
      | error e =>
        rw [hx] at hs
        exact hs
    · intro n ha
      obtain ⟨k, hs, -⟩ := Derivation.scalarKey_of_accepts hk hc ha
      have := ha.1
      have := ha.2
      exact ⟨by omega, by omega, _, hs⟩
  · intro l material p
    have hk : (Suite.ofGroup (.ladder l)).derivation.keys = .expanded l := Suite.keys_ofGroup (.ladder l)
    have hsize := Suite.privateKeySize_ladder l
    refine ⟨_, (Suite.described (.ladder l)).deriveKey_expanded hk hsize material, rfl, ?_⟩
    rw [Parameters.privateKeySize_eq]
    exact congrArg Nat.cast (length_expand ..)

def narrow : Derivation where
  kemId := .int 0x10
  digest := "sha256"
  secretSize := .int 32
  privateKeySize := .int 1
  bitmask := .int 1
  order := 2
  keys := .sampled .p256

/-- The candidate of the first counter is zero, and the second is taken. -/
theorem first_candidate_derived_narrow :
    ∃ k, narrow.deriveKey (.bytes [0]) = .ok (.scalar .p256 k) ∧ k.val = 1 := by
  have hd : Described narrow ⟨0x10, .sha256, 32, 65, 1⟩ "sha256" :=
    ⟨rfl, by decide, rfl, rfl, rfl, by decide, by decide⟩
  have hc : narrow.order ≤ PrimeCurve.order .p256 := by decide
  have hdrawn : (let p : Parameters := ⟨0x10, .sha256, 32, 65, 1⟩
      let key := p.labeledExtract [] "dkp_prk" [0]
      p.drawn 1 key 0 = 0 ∧ p.drawn 1 key 1 = 1) := by decide +kernel
  obtain ⟨h₀, h₁⟩ := hdrawn
  obtain ⟨k, hk, hv⟩ := (first_candidate_derived.1 hd rfl rfl hc [0]).1 1 (by decide)
    (by rw [h₁]; exact ⟨by decide, by decide⟩)
    (fun j hj => by
      obtain rfl : j = 0 := by omega
      rw [h₀]
      exact fun ha => absurd ha.1 (by decide))
  exact ⟨k, hk, hv.trans h₁⟩

end KeyCapsule
