import KeyCapsule.Proofs.MockKem
import KeyCapsule.Proofs.Transcript

/-! Lengths of expansions. Whether an expansion is made is decided by the length that it is asked for; what is
made has that length, and so does what the two bytes in front of its text say. -/
namespace KeyCapsule

namespace Hkdf

private theorem limit_lt_capacity (d : Digest) : limit d < Bytes.capacity 2 := by
  cases d <;> decide

/-- How a request for bytes of a length ends. Up to a limit they are delivered, above it the length is refused
as a value, and below zero or from a bound on it is refused as a number. -/
inductive Ends (limit : Nat) (bound n : Int) : Except Fault Bytes → Prop
  | delivered (h : 0 ≤ n ∧ n ≤ limit) {out : Bytes} (hl : (out.length : Int) = n) : Ends limit bound n (.ok out)
  | refused (h : limit < n ∧ n < bound) : Ends limit bound n (.error Fault.badValue)
  | overflowed (h : n < 0 ∨ bound ≤ n) : Ends limit bound n (.error Fault.outOfWord)

structure Exact (limit : Nat) (bound n : Int) (result : Except Fault Bytes) : Prop where
  delivered : (∃ out, result = .ok out ∧ (out.length : Int) = n) ↔ 0 ≤ n ∧ n ≤ limit
  overflow : (∃ e, result = .error e ∧ e.kind = .overflow) ↔ n < 0 ∨ bound ≤ n
  value : (∃ e, result = .error e ∧ e.kind = .value) ↔ limit < n ∧ n < bound

theorem Ends.exact {limit : Nat} {bound n : Int} (hlt : limit < bound) {result : Except Fault Bytes}
    (h : Ends limit bound n result) : Exact limit bound n result := by
  cases h with
  | delivered h hl =>
    refine ⟨⟨fun _ => h, fun _ => ⟨_, rfl, hl⟩⟩, ⟨?_, fun hn => absurd hn (by omega)⟩,
      ⟨?_, fun hn => absurd hn (by omega)⟩⟩
    · rintro ⟨e, he, -⟩
      cases he
    · rintro ⟨e, he, -⟩
      cases he
  | refused h =>
    refine ⟨⟨?_, fun hn => absurd hn (by omega)⟩, ⟨?_, fun hn => absurd hn (by omega)⟩,
      ⟨fun _ => h, fun _ => ⟨_, rfl, rfl⟩⟩⟩
    · rintro ⟨out, ho, -⟩
      cases ho
    · rintro ⟨e, he, hk⟩
      cases he
      cases hk
  | overflowed h =>
    refine ⟨⟨?_, fun hn => absurd hn (by omega)⟩, ⟨fun _ => h, fun _ => ⟨_, rfl, rfl⟩⟩,
      ⟨?_, fun hn => absurd hn (by omega)⟩⟩
    · rintro ⟨out, ho, -⟩
      cases ho
    · rintro ⟨e, he, hk⟩
      cases he
      cases hk

namespace Request

def wordBound : Int := 0x10000000000000000

variable {d : Digest} {length : Datum} {n : Int}

private theorem terms_within (hn : length.integer? = some n) (h₀ : 0 ≤ n) (h₁ : n ≤ limit d) (info : Bytes) :
    terms d (.bytes info) length = .ok (info, n.toNat) := by
  have hd := limit_lt_capacity d
  simp only [Bytes.capacity] at hd
  have hw : wordLength length = .ok n.toNat := by
    rw [wordLength, hn]
    exact if_neg (by omega)
  have hl : ¬ limit d < n.toNat := by omega
  rw [terms, hw, ok_bind]
  simp only [context, ok_bind, if_neg hl]
  rfl

private theorem terms_beyond (hn : length.integer? = some n) (h₀ : limit d < n) (h₁ : n < wordBound)
    (info : Bytes) :
    terms d (.bytes info) length = .error Fault.badValue := by
  rw [wordBound] at h₁
  have hw : wordLength length = .ok n.toNat := by
    rw [wordLength, hn]
    exact if_neg (by omega)
  have hl : limit d < n.toNat := by omega
  rw [terms, hw, ok_bind]
  simp only [context, ok_bind, if_pos hl]
  rfl

private theorem terms_misfit (hn : length.integer? = some n) (h : n < 0 ∨ wordBound ≤ n) (info : Datum) :
    terms d info length = .error Fault.outOfWord := by
  have hw : wordLength length = .error Fault.outOfWord := by
    rw [wordLength, hn]
    exact if_pos h
  rw [terms, hw, error_bind]

private theorem ends_derive (d : Digest) (hn : length.integer? = some n) (material info : Bytes) :
    Ends (limit d) wordBound n (derive d (.bytes material) (.bytes info) length) := by
  have hregions : (0 ≤ n ∧ n ≤ limit d) ∨ (limit d < n ∧ n < wordBound) ∨ (n < 0 ∨ wordBound ≤ n) := by
    omega
  rcases hregions with h | h | h
  · rw [derive, terms_within hn h.1 h.2, ok_bind]
    refine .delivered h ?_
    rw [length_expand, Int.toNat_of_nonneg h.1]
  · rw [derive, terms_beyond hn h.1 h.2, error_bind]
    exact .refused h
  · rw [derive, terms_misfit hn h, error_bind]
    exact .overflowed h

private theorem length_lt_of_expand {name key info : Datum} {out : Bytes}
    (h : expand name key info length = .ok out) :
    out.length < Bytes.capacity 2 := by
  obtain ⟨d, -, h⟩ := bind_eq_ok.1 h
  obtain ⟨⟨b, size⟩, ht, h⟩ := bind_eq_ok.1 h
  obtain ⟨_, -, h⟩ := bind_eq_ok.1 h
  cases h
  obtain ⟨_, -, ht⟩ := bind_eq_ok.1 ht
  obtain ⟨_, -, ht⟩ := bind_eq_ok.1 ht
  obtain ⟨hl, ht⟩ := guard_eq_ok.1 ht
  cases ht
  rw [length_expand]
  exact Nat.lt_of_le_of_lt (Nat.not_lt.1 hl) (limit_lt_capacity d)

end Request

namespace Labeled
variable {name : String} {d : Digest} {length : Datum} {n : Int} (hd : Digest.verbatim? name = some d)
  (hn : length.integer? = some n)
include hn

private theorem field_within (h₀ : 0 ≤ n) (h₁ : n < 0x10000) : field length = .ok n.toNat := by
  rw [field, hn]
  exact if_neg (by omega)

private theorem field_misfit (h : n < 0 ∨ 0x10000 ≤ n) : field length = .error Fault.outOfWord := by
  rw [field, hn]
  exact if_pos h

include hd

private theorem expand_within (h₀ : 0 ≤ n) (h₁ : n ≤ limit d) (suiteId key label payload : Bytes) :
    expand name suiteId key label payload length =
      .ok (Hkdf.expand d key (info n.toNat suiteId label payload) n.toNat) := by
  have hl := limit_lt_capacity d
  simp only [Bytes.capacity] at hl
  have hx : Request.expanding (.text name) = .ok d := by rw [Request.expanding, hd]
  rw [expand, field_within hn h₀ (by omega)]
  simp only [ok_bind, Datum.joinable_bytes, Request.expand, hx, Request.terms_within hn h₀ h₁]
  rfl

private theorem expand_beyond (h₀ : limit d < n) (h₁ : n < 0x10000) (suiteId key label payload : Bytes) :
    expand name suiteId key label payload length = .error Fault.badValue := by
  have hx : Request.expanding (.text name) = .ok d := by rw [Request.expanding, hd]
  have hw : n < Request.wordBound := by
    rw [Request.wordBound]
    omega
  rw [expand, field_within hn (by omega) h₁]
  simp only [ok_bind, Datum.joinable_bytes, Request.expand, hx, Request.terms_beyond hn h₀ hw, error_bind]

private theorem ends_expand (suiteId key label payload : Bytes) :
    Ends (limit d) 0x10000 n (expand name suiteId key label payload length) := by
  have hregions : (0 ≤ n ∧ n ≤ limit d) ∨ (limit d < n ∧ n < 0x10000) ∨ (n < 0 ∨ 0x10000 ≤ n) := by
    omega
  rcases hregions with h | h | h
  · rw [expand_within hd hn h.1 h.2]
    refine .delivered h ?_
    rw [length_expand, Int.toNat_of_nonneg h.1]
  · rw [expand_beyond hd hn h.1 h.2]
    exact .refused h
  · rw [expand, field_misfit hn h, error_bind]
    exact .overflowed h

/-- What was made has the length in front of its text, in two bytes that read back. -/
private theorem prefixed_of_expand {suiteId key label payload out : Bytes}
    (h : expand name suiteId key label payload length = .ok out) :
    ∃ front : Bytes, front.length = 2 ∧ Bytes.toNatBE front = out.length ∧
      out = Hkdf.expand d key (front ++ version ++ suiteId ++ label ++ payload) out.length := by
  have hl := limit_lt_capacity d
  have hends := ends_expand hd hn suiteId key label payload
  rw [h] at hends
  cases hends with
  | delivered hin hlen =>
    have hx := expand_within hd hn hin.1 hin.2 suiteId key label payload
    have hlen : n.toNat = out.length := by omega
    rw [h, hlen] at hx
    refine ⟨Bytes.ofNatBE 2 out.length, Bytes.length_ofNatBE 2 _, ?_, Except.ok.inj hx⟩
    rw [Bytes.toNatBE_ofNatBE, Nat.mod_eq_of_lt (by omega)]

end Labeled
end Hkdf

namespace Suite
open Hkdf

private theorem sizes_within (g : Group) :
    ∀ size ∈ [(ofGroup g).secretSize, (ofGroup g).privateKeySize], 0 ≤ size ∧ size ≤ limit g.digest := by
  revert g
  decide

end Suite

namespace MockKem

private theorem field_integer {x : Datum} {n : Int} (hn : x.integer? = some n) (h₀ : 0 ≤ n) (h₁ : n < 0x10000) :
    MockParameters.field x = .ok (Bytes.ofNatBE 2 n.toNat) := by
  rw [MockParameters.field, hn]
  exact if_pos ⟨h₀, h₁⟩

/-- Under parameters that can be written down the secret of a nonce goes by its size alone. -/
private theorem ends_secretOf {p : MockParameters} {n m : Int} (hn : p.secretSize.integer? = some n)
    (h₀ : 0 ≤ n)
    (h₁ : n < 0x10000) (hm : p.encapsulationSize.integer? = some m) (h₂ : 0 ≤ m) (h₃ : m < 0x10000)
    (material nonce : Bytes) :
    Hkdf.Ends maxSecretSize Hkdf.Request.wordBound n (secretOf (.bytes material) p (.bytes nonce)) := by
  have he : ∃ encoded, p.encode = .ok encoded := by
    rw [MockParameters.encode, field_integer hn h₀ h₁, field_integer hm h₂ h₃]
    exact ⟨_, rfl⟩
  obtain ⟨encoded, he⟩ := he
  rw [secretOf, he, ok_bind, Datum.joinable_bytes, ok_bind]
  exact Hkdf.Request.ends_derive .sha256 hn _ _

end MockKem

open Hkdf

/-- Expansions are exact in their lengths up to the limits of their digests, and two bytes hold each length that
they have. Every size of a built-in suite is within reach, and so is every size that the stand-in allows. -/
theorem lengths_exact :
    (∀ {name : String} {d : Digest} {length : Datum} {n : Int},
      Digest.verbatim? name = some d → length.integer? = some n → ∀ suiteId key label payload : Bytes,
        let result := Labeled.expand name suiteId key label payload length
        Exact (255 * d.size) 0x10000 n result ∧
        ∀ out, result = .ok out → ∃ front : Bytes, front.length = 2 ∧ Bytes.toNatBE front = out.length ∧
          out = Hkdf.expand d key (front ++ Labeled.version ++ suiteId ++ label ++ payload) out.length) ∧
    (∀ {name key info length : Datum} {out : Bytes}, Request.expand name key info length = .ok out →
      Bytes.toNatBE (Bytes.ofNatBE 2 out.length) = out.length) ∧
    (∀ g : Group, let s := Suite.ofGroup g
      (∀ suiteId key label payload : Bytes, ∀ size ∈ [s.secretSize, s.privateKeySize],
        ∃ out, Labeled.expand s.digest suiteId key label payload size = .ok out ∧
          (out.length : Int) = size) ∧
      ∀ agreed context : Bytes, ∃ secret, s.sharedSecret agreed context = .ok secret ∧
        (secret.length : Int) = s.secretSize) ∧
    (∀ {length : Datum} {n : Int}, length.integer? = some n → ∀ material info : Bytes,
      Exact MockKem.maxSecretSize Request.wordBound n (MockKem.derive material info length)) ∧
    ∀ {p : MockParameters} {n m : Int}, p.secretSize.integer? = some n → 1 ≤ n → n ≤ MockKem.maxSecretSize →
      p.encapsulationSize.integer? = some m → 0 ≤ m → m ≤ 0xffff → ∀ material nonce : Bytes,
        ∃ secret, MockKem.secretOf material p nonce = .ok secret ∧ (secret.length : Int) = n := by
  refine ⟨?_, ?_, ?_, ?_, ?_⟩
  · intro name d length n hd hn suiteId key label payload result
    have hlt : ((limit d : Nat) : Int) < 0x10000 := Int.ofNat_lt.2 (limit_lt_capacity d)
    exact ⟨(Labeled.ends_expand hd hn suiteId key label payload).exact hlt,
      fun out h => Labeled.prefixed_of_expand hd hn h⟩
  · intro name key info length out h
    rw [Bytes.toNatBE_ofNatBE, Nat.mod_eq_of_lt (Request.length_lt_of_expand h)]
  · intro g s
    constructor
    · intro suiteId key label payload size hsize
      obtain ⟨h₀, h₁⟩ := Suite.sizes_within g size hsize
      refine ⟨_, Labeled.expand_within (Suite.verbatim?_ofGroup g) rfl h₀ h₁ suiteId key label payload, ?_⟩
      rw [length_expand, Int.toNat_of_nonneg h₀]
    · intro agreed context
      have h := Transcript.sharedSecret_eq ⟨g, agreed, context, []⟩
      rw [List.append_nil] at h
      exact ⟨_, h, Transcript.size_secret _⟩
  · intro length n hn material info
    exact (Request.ends_derive .sha256 hn material info).exact (by decide)
  · intro p n m hn h₀ h₁ hm h₂ h₃ material nonce
    have hn' : n < 0x10000 := by
      simp only [MockKem.maxSecretSize] at h₁
      omega
    have hends := MockKem.ends_secretOf hn (by omega) hn' hm h₂ (by omega) material nonce
    exact (hends.exact (by decide)).delivered.2 ⟨by omega, h₁⟩

/-- At the limit of the longest digest a whole expansion is delivered, one byte more is refused as a value, and
the next number of three bytes as a number. A length may be a truth value. The longest secret of the stand-in is
delivered too. -/
theorem lengths_exact_limits :
    let expand := Labeled.expand "sha512" (.bytes []) (.bytes [1]) (.bytes [2]) (.bytes [])
    let p : MockParameters := ⟨.int 8160, .int 65535, .none⟩
    (∃ out, expand (.int 16320) = .ok out ∧ out.length = (16320 : Int)) ∧
      (∃ out, expand (.bool true) = .ok out ∧ out.length = (1 : Int)) ∧
      (∃ e, expand (.int 16321) = .error e ∧ e.kind = .value) ∧
      (∃ e, expand (.int 65536) = .error e ∧ e.kind = .overflow) ∧
      (∃ e, expand (.int (-1)) = .error e ∧ e.kind = .overflow) ∧
      ∃ secret, MockKem.secretOf (.bytes [3]) p (.bytes [4]) = .ok secret ∧ secret.length = (8160 : Int) := by
  intro expand p
  obtain ⟨hlabeled, -, -, -, hmock⟩ := lengths_exact
  have hends : ∀ {length : Datum} {n : Int}, length.integer? = some n →
      Exact (255 * Digest.sha512.size) 0x10000 n (expand length) := fun hn =>
    (@hlabeled "sha512" _ _ _ rfl hn [] [1] [2] []).1
  refine ⟨?_, ?_, ?_, ?_, ?_, ?_⟩
  · exact (hends (n := 16320) rfl).delivered.2 (by decide)
  · exact (hends (n := 1) rfl).delivered.2 (by decide)
  · exact (hends (n := 16321) rfl).value.2 (by decide)
  · exact (hends (n := 65536) rfl).overflow.2 (by decide)
  · exact (hends (n := -1) rfl).overflow.2 (by decide)
  · exact hmock (p := p) (n := 8160) (m := 65535) rfl (by decide) (by decide) rfl (by decide) (by decide) [3] [4]

end KeyCapsule
