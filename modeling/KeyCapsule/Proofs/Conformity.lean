import KeyCapsule.Proofs.Draw
import KeyCapsule.Proofs.Sampling

/-! Agreement with the standard. What the two sides of a suite compute for the whole secret is what the
standard prescribes, and they fail exactly where it gives up. -/
namespace KeyCapsule
open Hkdf.Labeled (label)

namespace Standard

namespace Parameters

private theorem secretSize_eq (g : Group) : (parameters g).secretSize = g.secretSize := by
  revert g
  decide

private theorem suiteId_eq (g : Group) : (parameters g).suiteId = g.identifier := by
  have hk : ∀ g : Group, (parameters g).kemId = g.kemId := by decide
  rw [suiteId_label, hk, Group.identifier]

private theorem labeledExtract_eq (g : Group) {s : String} (hs : s ∈ labels) (material : Bytes) :
    (parameters g).labeledExtract [] s material =
      Hkdf.extract g.digest [] (Hkdf.Labeled.material g.identifier (label s) material) := by
  rw [labeledExtract_material _ hs, hash_eq, suiteId_eq]

private theorem labeledExpand_eq (g : Group) {s : String} (hs : s ∈ labels) (key info : Bytes) (length : Nat) :
    (parameters g).labeledExpand key s info length =
      Hkdf.expand g.digest key (Hkdf.Labeled.info length g.identifier (label s) info) length := by
  rw [labeledExpand_info _ hs, hash_eq, suiteId_eq]

private theorem extractAndExpand_eq (t : Transcript) :
    (parameters t.group).extractAndExpand t.agreed (t.message ++ t.receiver) = t.secret := by
  rw [extractAndExpand, labeledExtract_eq t.group (by decide), labeledExpand_eq t.group (by decide),
    secretSize_eq]
  rfl

end Parameters

private theorem serialize_eq (q : PublicKey) : serialize q = q.serialize := by
  cases q with
  | point c q => rw [serialize, i2osp_eq, i2osp_eq]; rfl
  | coordinate l u => rfl

private theorem deserialize_eq (g : Group) (b : Bytes) :
    deserialize g b = match g.decode? b with
      | some q => .ok q
      | none => .error .deserialize := by
  cases g with
  | ladder l =>
    by_cases h : b.length = l.size <;> simp [deserialize, Group.decode?, h]
  | prime c =>
    cases b with
    | nil => simp [deserialize, Group.decode?, PrimeCurve.decode?]
    | cons mark rest =>
      have hl : (mark :: rest).length = 1 + 2 * c.width ↔ rest.length = 2 * c.width := by
        rw [List.length_cons]
        omega
      have hd : (mark :: rest).drop (1 + c.width) = rest.drop c.width := by
        rw [Nat.add_comm, List.drop_succ_cons]
      simp only [deserialize, Group.decode?, PrimeCurve.decode?, hl, hd, List.head?_cons, List.drop_succ_cons,
        List.drop_zero, os2ip_eq, Option.some.injEq]
      by_cases h : mark = 4 ∧ rest.length = 2 * c.width
      · rw [if_pos h.symm, if_pos h]
        cases c.point? (Bytes.toNatBE (rest.take c.width)) (Bytes.toNatBE (rest.drop c.width)) <;> rfl
      · rw [if_neg (fun hc => h hc.symm), if_neg h]
        rfl

end Standard

namespace Suite
open Standard

/-- Keying material determines the key that the standard derives from it. -/
theorem deriveKey_eq (g : Group) (material : Bytes) :
    (ofGroup g).deriveKey (.bytes material) = match deriveKeyPair g material with
      | .ok k => .ok k
      | .error _ => .error .noScalar := by
  have hd := described g
  have hk : (ofGroup g).derivation.keys = _ := keys_ofGroup g
  cases g with
  | prime c =>
    have ho : (ofGroup (.prime c)).derivation.order.toNat = c.order := by cases c <;> rfl
    have hs := Derivation.sample_eq_search (fun counter _ => candidate_prime c
      ((parameters (.prime c)).labeledExtract [] "dkp_prk" material) counter) hk ho (Nat.le_refl _)
      (Nat.add_zero 256) (.inl rfl)
    rw [deriveKey, hd.deriveKey_sampled hk, deriveKeyPair, hs]
    cases search c.order _ 0 0 <;> rfl
  | ladder l =>
    exact hd.deriveKey_expanded hk (privateKeySize_ladder l) material

end Suite

namespace KeyAgreement
open Standard

/-- Agreement that computes what the arithmetic says and refuses what the standard has refused. -/
structure Realizes (g : KeyAgreement) (a : Arithmetic) : Prop where
  publicOf : ∀ k, g.publicOf k = a.publicOf k
  exchange : ∀ k q, k.group = q.group → g.exchange k q = (a.agree k q).toOption

private theorem all_zero_encode (l : Ladder) (k u : Nat) :
    (l.encode (l.multiply k u)).all (· == 0) = true ↔ l.multiply k u = 0 := by
  have zeros : ∀ w n, (Bytes.ofNatLE w n).all (· == 0) = true ↔ n % Bytes.capacity w = 0 := by
    intro w
    induction w with
    | zero => simp [Bytes.ofNatLE, Bytes.capacity, Nat.mod_one]
    | succ w ih =>
      intro n
      have hb : UInt8.ofNat n = 0 ↔ n % 256 = 0 := by
        rw [← UInt8.toNat_inj]
        simp
      rw [Bytes.ofNatLE, List.all_cons, Bool.and_eq_true, ih, beq_iff_eq, hb, Bytes.capacity, Nat.mod_mul]
      omega
  have hm : 0 < l.modulus ∧ l.modulus ≤ Bytes.capacity l.size := by cases l <;> decide +kernel
  have hlt : l.multiply k u < l.modulus := Nat.mod_lt _ hm.1
  rw [Ladder.encode, zeros, Nat.mod_eq_of_lt (Nat.lt_of_lt_of_le hlt hm.2)]

private theorem realizes_curves : standard.Realizes Arithmetic.curves where
  publicOf _ := rfl
  exchange k q h := by
    cases k with
    | scalar c k =>
      cases q with
      | coordinate m u => cases h
      | point d q =>
        cases h
        simp only [standard, standardExchange, Arithmetic.agree, Arithmetic.curves, dif_pos, i2osp_eq]
        cases c.multiply k.val q <;> rfl
    | seed l s =>
      cases q with
      | point d q => cases h
      | coordinate m u =>
        cases h
        have hz := all_zero_encode l (l.multiplier s.val) (l.coordinate u.val)
        simp only [standard, standardExchange, Arithmetic.agree, Arithmetic.curves, if_true, PrivateKey.group]
        by_cases h0 : l.multiply (l.multiplier s.val) (l.coordinate u.val) = 0
        · rw [if_pos h0, if_pos (hz.2 h0)]
          rfl
        · rw [if_neg h0, if_neg (fun hc => h0 (hz.1 hc))]
          rfl

end KeyAgreement

namespace DhKem
open Standard Transcript

variable {g : KeyAgreement} {a : Arithmetic} {σ : Type}

def faultOf : Failure → Fault
  | .deriveKeyPair => .noScalar
  | .validation => .key .refusedAgreement
  | .deserialize => .undecapsulated

def Prescribed (result : Except Fault Encapsulated) : Except Failure (Bytes × Bytes) → Prop
  | .ok (secret, message) => ∃ k, result = .ok ⟨k, .bytes message, .none⟩ ∧ k.encoded = secret ∧
      k.algorithm = SecretKey.generic
  | .error e => result = .error (faultOf e)

private theorem slice_whole {secret : Bytes} (h : 0 < secret.length) :
    ∃ k, SecretKey.slice (.bytes secret) (.int 0) (.int secret.length) SecretKey.generic = .ok k ∧
      k.encoded = secret ∧ k.algorithm = SecretKey.generic := by
  have hl : SecretKey.generic.isNone = false := rfl
  obtain ⟨k, hk, he, ha⟩ := SecretKey.slice_bytes (b := secret) (Int.le_refl 0) (by omega)
    (Int.le_refl _) hl
  exact ⟨k, hk, he.trans secret.cut_whole, ha⟩

private theorem seal_eq (ha : g.Realizes a) {receiver : PublicKey} {ephemeral : PrivateKey}
    (he : ephemeral.group = receiver.group) :
    sealWith g (Suite.ofGroup receiver.group) receiver ephemeral =
      match a.agree ephemeral receiver with
      | .ok z =>
        let message := serialize (a.publicOf ephemeral)
        .ok (message, (parameters receiver.group).extractAndExpand z (message ++ serialize receiver))
      | .error _ => .error (.key .refusedAgreement) := by
  rw [sealWith_eq he, sealedBy?, ha.exchange _ _ he]
  cases a.agree ephemeral receiver with
  | error e => rfl
  | ok z =>
    have hx := Parameters.extractAndExpand_eq
      ⟨receiver.group, z, (g.publicOf ephemeral).serialize, receiver.serialize⟩
    simp only [serialize_eq, ← ha.publicOf, hx]
    rfl

private theorem agree_error {k : PrivateKey} {q : PublicKey} {e : Failure} (h : a.agree k q = .error e) :
    e = .validation := by
  simp only [Arithmetic.agree] at h
  split at h
  · cases h
    rfl
  · cases h
  · split at h
    · cases h
      rfl
    · cases h

private theorem search_error {order : Nat} {candidate : Nat → Nat} {n counter : Nat} {e : Failure}
    (h : search order candidate n counter = .error e) : e = .deriveKeyPair := by
  fun_induction search order candidate n counter with
  | case1 => exact (Except.error.inj h).symm
  | case2 n counter _ _ ih => exact ih h
  | case3 => cases h

private theorem deriveKeyPair_error {g : Group} {material : Bytes} {e : Failure}
    (h : deriveKeyPair g material = .error e) : e = .deriveKeyPair := by
  cases g with
  | ladder l => cases h
  | prime c =>
    simp only [deriveKeyPair] at h
    cases hs : search c.order _ 0 0 with
    | ok k =>
      rw [hs] at h
      cases h
    | error e' =>
      rw [hs] at h
      cases h
      exact search_error hs

private theorem answer_prescribed (ha : g.Realizes a) (receiver : PublicKey) (material : Bytes) :
    Prescribed (answer g (Suite.ofGroup receiver.group) receiver material (.int 0)
      (.int (Suite.ofGroup receiver.group).secretSize) SecretKey.generic) (a.encap receiver material) := by
  have hd := Suite.deriveKey_eq receiver.group material
  rw [answer, Arithmetic.encap]
  cases hk : deriveKeyPair receiver.group material with
  | error e =>
    rw [hk] at hd
    rw [hd]
    cases deriveKeyPair_error hk
    rfl
  | ok ephemeral =>
    rw [hk] at hd
    rw [hd, ok_bind, ok_bind, seal_eq ha (Suite.group_deriveKey hd)]
    cases hz : a.agree ephemeral receiver with
    | error e =>
      cases agree_error hz
      rfl
    | ok z =>
      let t : Transcript := ⟨receiver.group, z, serialize (a.publicOf ephemeral), serialize receiver⟩
      have hx : _ = t.secret := Parameters.extractAndExpand_eq t
      have hpos : ∀ g : Group, 0 < g.secretSize := by decide
      have hsize : (Suite.ofGroup receiver.group).secretSize = t.secret.length := (size_secret t).symm
      have hlen : 0 < t.secret.length := by
        rw [length_secret]
        exact hpos _
      obtain ⟨k, hk, he, hg⟩ := slice_whole hlen
      simp only [ok_bind, hsize]
      refine ⟨k, ?_, he.trans hx.symm, hg⟩
      rw [hx, hk]
      rfl

private theorem decap_eq (ha : g.Realizes a) (key : PrivateKey) (message : Bytes) :
    (a.decap message key).toOption = (opened? g key message).map Transcript.secret := by
  rw [Arithmetic.decap, deserialize_eq, opened?]
  cases hd : key.group.decode? message with
  | none => rfl
  | some ephemeral =>
    have hz := ha.exchange key ephemeral (PublicKey.of_decode? hd).1.symm
    simp only [ok_bind, Option.bind_eq_bind, Option.bind_some, hz]
    cases a.agree key ephemeral with
    | error e => rfl
    | ok z =>
      have hx := Parameters.extractAndExpand_eq ⟨key.group, z, message, (g.publicOf key).serialize⟩
      simp only [ok_bind, serialize_eq, ← ha.publicOf, hx]
      rfl

theorem secretSize_pos (g : Group) : 0 < (Suite.ofGroup g).secretSize := by
  revert g
  decide

theorem grant_whole (g : KeyAgreement) (receiver : PublicKey) :
    (plan g (Suite.ofGroup receiver.group) receiver).grant (.int 0) .none SecretKey.generic =
      .ok (.int 0, .int (Suite.ofGroup receiver.group).secretSize) := by
  have hs := secretSize_pos receiver.group
  have hw := checkWindow_int 0 (Suite.ofGroup receiver.group).secretSize
    (Suite.ofGroup receiver.group).secretSize
  rw [if_pos (by omega), ← checkWindow_absent] at hw
  have hl : SecretKey.generic.isNone = false := rfl
  simp [plan, Terms.verdict, hl, hw, ok_bind, hs, pure, Except.pure]

/-- A receiver's outcome that is the prescribed secret, as a key for any use and without a record, or the
one refusal. -/
def Recovered (dec : Decapsulator σ) (s : σ) (o : Outcome σ SecretKey) : Except Failure Bytes → Prop
  | .ok secret => ∃ k, o = ⟨.ok k, [], s⟩ ∧ k.encoded = secret ∧ k.algorithm = SecretKey.generic
  | .error _ => o = ⟨.error .undecapsulated, [dec.failure], s⟩

/-- Both sides of the suites as the standard prescribes them for the whole secret: equal secrets and
messages where it gives some, and a failure exactly where it gives up. -/
structure Conforms (g : KeyAgreement) (a : Arithmetic) : Prop where
  /-- The one draw is the keying material, and what it costs the source is all that remains of a
  request. -/
  encapsulates : ∀ {σ : Type} {receiver : PublicKey} {source : Source σ} {enc : Encapsulator σ} {s : σ}
    {material : Bytes}, BoundSender g receiver source enc →
    let drawn := (source.read (.int (parameters receiver.group).privateKeySize)).run s
    drawn.result = .ok material →
      ∃ result, enc.whole.run s = ⟨result, drawn.log, drawn.state⟩ ∧
        Prescribed result (a.encap receiver material)
  decapsulates : ∀ {σ : Type} {key : PrivateKey} {dec : Decapsulator σ}, BoundReceiver g key dec →
    ∀ (message : Bytes) (s : σ),
      Recovered dec s ((dec.whole (.bytes message)).run s) (a.decap message key)

/-- A prescribed secret and message are what a sender gives. -/
theorem Conforms.seals (hc : Conforms g a) {receiver : PublicKey} {source : Source σ}
    {enc : Encapsulator σ} {s : σ} {material secret message : Bytes}
    (he : BoundSender g receiver source enc)
    (hm : ((source.read (.int (parameters receiver.group).privateKeySize)).run s).result = .ok material)
    (h : a.encap receiver material = .ok (secret, message)) :
    ∃ k, (enc.whole.run s).result = .ok ⟨k, .bytes message, .none⟩ ∧ k.encoded = secret := by
  obtain ⟨result, hrun, hp⟩ := hc.encapsulates he hm
  rw [h] at hp
  obtain ⟨k, rfl, hk, -⟩ := hp
  exact ⟨k, congrArg Outcome.result hrun, hk⟩

/-- A prescribed secret is what a receiver gets out of the message. -/
theorem Conforms.opens (hc : Conforms g a) {key : PrivateKey} {dec : Decapsulator σ}
    {message secret : Bytes} (hd : BoundReceiver g key dec) (h : a.decap message key = .ok secret)
    (s : σ) : ∃ k, (dec.whole (.bytes message)).run s = ⟨.ok k, [], s⟩ ∧ k.encoded = secret := by
  have hr := hc.decapsulates hd message s
  rw [h] at hr
  obtain ⟨k, hk, he, -⟩ := hr
  exact ⟨k, hk, he⟩

/-- With agreement that realizes the curves' arithmetic, the provider's senders and receivers are those
of the standard. -/
theorem conforms (ha : g.Realizes a) : Conforms g a := by
  constructor
  case encapsulates =>
    intro σ receiver source enc s material he drawn hm
    cases he.eq_sender
    have hw : (plan g (Suite.ofGroup receiver.group) receiver).wanted =
        (parameters receiver.group).privateKeySize := Parameters.privateKeySize_eq _
    have hr := Plan.run_granted source s (grant_whole g receiver)
    rw [← sender_serves, hw] at hr
    refine ⟨_, hr, ?_⟩
    rw [hm, ok_bind]
    exact answer_prescribed ha receiver material
  case decapsulates =>
    intro σ key dec hd message s
    cases hd.eq_receiver
    have hs := secretSize_pos key.group
    have hgrant : (((receiver g (Suite.ofGroup key.group) key : Decapsulator σ).grant (.int 0)
        (.int (Suite.ofGroup key.group).secretSize) SecretKey.generic).run s).result = .ok _ :=
      grant_ok.2 ⟨rfl, ⟨Int.le_refl 0, hs, Int.le_refl _⟩, rfl⟩
    have hr := receiver_run g key message hgrant
    have hw : (receiver g (Suite.ofGroup key.group) key : Decapsulator σ).whole (.bytes message) =
        (receiver g (Suite.ofGroup key.group) key).decapsulate (.bytes message) (.int 0)
          (.int (Suite.ofGroup key.group).secretSize) SecretKey.generic :=
      Terms.receive_absent (t := terms "DHKEMDecapsulator" (Suite.ofGroup key.group))
        (fixed_terms _ _).secretSize (decapsulate g (Suite.ofGroup key.group) key) (.bytes message)
        (.int 0) SecretKey.generic
    have ho := decap_eq ha key message
    rw [hw]
    cases hd : a.decap message key with
    | error e =>
      rw [hd] at ho
      rw [Option.map_eq_none_iff.1 ho.symm] at hr
      exact hr
    | ok secret =>
      rw [hd] at ho
      obtain ⟨t, ht, rfl⟩ := Option.map_eq_some_iff.1 ho.symm
      rw [ht] at hr
      obtain ⟨k, hk, he, hl⟩ := hr
      refine ⟨k, hk, ?_, hl⟩
      rw [he, ← group_of_opened? ht, ← size_secret, Bytes.cut_whole]

end DhKem

/-! The exchange that the standard publishes for the shorter ladder. -/
namespace Standard.Published
open Arithmetic

def octets (n : Nat) : { b : Bytes // b.length = Ladder.x25519.size } :=
  ⟨i2osp n 32, by simp [i2osp, Ladder.size]⟩

def material : Bytes := i2osp 0x7268600d403fce431561aef583ee1613527cff655c1343f29812e66706df3234 32

def key : PrivateKey :=
  .seed .x25519 (octets 0x4612c550263fc8ad58375df3f557aac531d26850903e55a9f23f21d8534e8ac8)

def receiver : PublicKey :=
  .coordinate .x25519 (octets 0x3948cfe0ad1ddb695d780e59077195da6c56506b027329794ab02bca80815c4d)

def ephemeral : PrivateKey :=
  .seed .x25519 (octets 0x52c4a758a802cd8b936eceea314432798d5baf2d7e9235dc084ab1b9cfa2f736)

def message : Bytes := i2osp 0x37fda3567bdbd628e88668c3c8d7e97d1d1253b6d4ea6d44c150f741f1bf4431 32

def agreed : Bytes := i2osp 0xb3b5c19eab3f088ac18f23f774ff6414ba4fde45404d10085efc3e4dc9c72e35 32

def secret : Bytes := i2osp 0xfe0e18c9f024ce43799ae393c7e8fe8fce9d218875e8227b0187c04e7d2ea1fc 32

private theorem deriveKeyPair_material : deriveKeyPair receiver.group material = .ok ephemeral :=
  toOption_eq_some.1 (by decide +kernel)

private theorem agree_published :
    curves.agree ephemeral receiver = .ok agreed ∧
      deserialize key.group message = .ok (curves.publicOf ephemeral) ∧
      curves.agree key (curves.publicOf ephemeral) = .ok agreed ∧
      serialize (curves.publicOf ephemeral) = message ∧ curves.publicOf key = receiver :=
  ⟨toOption_eq_some.1 (by decide +kernel), toOption_eq_some.1 (by decide +kernel),
    toOption_eq_some.1 (by decide +kernel), by decide +kernel, by decide +kernel⟩

private theorem secret_agreed :
    (parameters receiver.group).extractAndExpand agreed (message ++ serialize receiver) = secret := by
  decide +kernel

private theorem encap_material : curves.encap receiver material = .ok (secret, message) := by
  obtain ⟨ha, -, -, hm, -⟩ := agree_published
  rw [encap, deriveKeyPair_material, ok_bind, ha, ok_bind, ← secret_agreed, ← hm]
  rfl

private theorem decap_message : curves.decap message key = .ok secret := by
  obtain ⟨-, hd, ha, -, hk⟩ := agree_published
  have hg : key.group = receiver.group := rfl
  rw [decap, hd, ok_bind, ha, ok_bind, hk, hg, secret_agreed]
  rfl

end Standard.Published

namespace DhKem
open KeyAgreement (standard)
open Standard

/-- From the published keying material a sender comes to the published message and secret, and a receiver
gets that secret out of the message. -/
theorem conforms_published :
    let source : Source Unit := ⟨fun _ => pure (.bytes Published.material)⟩
    standard.Realizes Arithmetic.curves ∧
      ∃ (enc : Encapsulator Unit) (dec : Decapsulator Unit) (j k : SecretKey),
        BoundSender standard Published.receiver source enc ∧ BoundReceiver standard Published.key dec ∧
          (enc.whole.run ()).result = .ok ⟨j, .bytes Published.message, .none⟩ ∧
          j.encoded = Published.secret ∧
          (dec.whole (.bytes Published.message)).run () = ⟨.ok k, [], ()⟩ ∧
          k.encoded = Published.secret := by
  intro source
  have he := boundSender standard Published.receiver source ()
  have hd := boundReceiver standard Published.key source ()
  have hc := conforms KeyAgreement.realizes_curves
  have hm : ((source.read (.int (parameters Published.receiver.group).privateKeySize)).run ()).result =
      .ok Published.material := Source.accept_bytes Published.material
  obtain ⟨j, hj, hjs⟩ := hc.seals he hm Published.encap_material
  obtain ⟨k, hk, hks⟩ := hc.opens hd Published.decap_message ()
  exact ⟨KeyAgreement.realizes_curves, _, _, j, k, he, hd, hj, hjs, hk, hks⟩

end DhKem
end KeyCapsule
