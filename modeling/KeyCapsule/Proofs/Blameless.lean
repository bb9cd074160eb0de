import KeyCapsule.Proofs.Outcome
import KeyCapsule.Proofs.RoundTrip

/-! The built-in providers under the checks. Matching pairs of both are lawful whatever their source
delivers, so no check blames them for anything but a source that repeats itself. -/
namespace KeyCapsule
open Conformance Act

variable {σ : Type}

namespace Source

def drawn (source : Source σ) (wanted : Int) (s : σ) : Nat → σ
  | 0 => s
  | n + 1 => ((source.read (.int wanted)).run (drawn source wanted s n)).state

/-- Draw after draw a source delivers what was asked for. -/
def Delivers (source : Source σ) (wanted : Int) (s : σ) (material : Nat → Bytes) : Prop :=
  ∀ n, ((source.read (.int wanted)).run (source.drawn wanted s n)).result = .ok (material n)

private theorem Delivers.ends {source : Source σ} {wanted : Int} {s : σ} {material : Nat → Bytes}
    (h : source.Delivers wanted s material) (n : Nat) :
    (source.read (.int wanted)).Ends (source.drawn wanted s n) (.ok (material n))
      (source.drawn wanted s (n + 1)) := ⟨h n, rfl⟩

/-- What is computed of a draw moves the state no further. -/
theorem Delivers.answered {α : Type} {source : Source σ} {wanted : Int} {s : σ} {material : Nat → Bytes}
    (h : source.Delivers wanted s material) {n : Nat} {answer : Bytes → Except Fault α} {r : Except Fault α}
    (ha : answer (material n) = r) :
    (source.read (.int wanted) >>= fun b => (liftM (answer b) : Act σ α)).Ends (source.drawn wanted s n) r
      (source.drawn wanted s (n + 1)) :=
  (h.ends n).bind (ha ▸ ends_lift (answer (material n)) _)

end Source

/-- A provider with a name of its own is reported under some name. -/
theorem titled {p : Provider σ} {own : Datum} (hp : p.name = some own) (name : Datum) :
    ∃ title, titleOf p name = .ok title := by
  rw [titleOf, hp]
  cases name.isEmpty <;> exact ⟨_, rfl⟩

namespace DhKem
open Transcript

variable {g : KeyAgreement} {key : PrivateKey} {source : Source σ} {s : σ} {t : Nat → Transcript}

/-- A pair of the suites on a source whose draws give these transcripts. -/
def practice (g : KeyAgreement) (key : PrivateKey) (source : Source σ) (s : σ) (t : Nat → Transcript) :
    Practice σ where
  secretSize := (Suite.ofGroup key.group).secretSize
  messageSize := (Suite.ofGroup key.group).encapsulationSize
  offers := offers
  sealing := encapsulate g (Suite.ofGroup (g.publicOf key).group) (g.publicOf key) source
  reads m := (openWith g (Suite.ofGroup key.group) key m).toOption
  place := source.drawn (Suite.ofGroup key.group).privateKeySize s
  turn n := ⟨(t n).message, (t n).secret⟩

private theorem toOption_openWith (m : Bytes) :
    (openWith g (Suite.ofGroup key.group) key m).toOption = (opened? g key m).map secret := by
  rw [openWith_eq]
  cases opened? g key m <;> rfl

def bench (g : KeyAgreement) (key : PrivateKey) (source : Source σ) (trials workers : Int) : Bench σ :=
  ⟨sender g (Suite.ofGroup (g.publicOf key).group) (g.publicOf key) source,
    receiver g (Suite.ofGroup key.group) key, trials, workers⟩

theorem lawful (hg : g.Lawful) {material : Nat → Bytes}
    (hd : source.Delivers (Suite.ofGroup key.group).privateKeySize s material)
    (ht : ∀ n, sealed? g (g.publicOf key) (material n) = some (t n)) (trials workers : Int) :
    Lawful (bench g key source trials workers) (practice g key source s t) where
  enc := by
    have hf := fixed_terms (σ := σ) "DHKEMEncapsulator" (Suite.ofGroup (g.publicOf key).group)
    rw [hg.group_publicOf] at hf
    rw [bench, hg.group_publicOf]
    exact hf
  dec := fixed_terms _ _
  answers := supports_eq _ _
  receiverAnswers := supports_eq _ _
  quiet := quiet_terms _ _
  encapsulate := rfl
  decapsulate := by
    have hh : decapsulate g (Suite.ofGroup key.group) key = fun m start stop label =>
        (liftM (SecretKey.cutFrom (openWith g (Suite.ofGroup key.group) key m).toOption start stop label) :
          Act σ SecretKey) := by
      funext m start stop label
      rw [toOption_openWith]
      exact decapsulate_eq key m start stop label
    exact congrArg (Terms.receive (terms "DHKEMDecapsulator" (Suite.ofGroup key.group))) hh
  secret_pos := secretSize_pos key.group
  secret_small := by
    have hsmall : ∀ g : Group, (Suite.ofGroup g).secretSize < 0xffff := by decide
    exact hsmall key.group
  message_pos := by
    have hpos : ∀ g : Group, 1 ≤ (Suite.ofGroup g).encapsulationSize := by decide
    exact hpos key.group
  whole := decide_eq_true (secretSize_pos key.group)
  seals n start stop label h₀ h₁ h₂ := by
    have hsize : stop ≤ (Suite.ofGroup (g.publicOf key).group).secretSize := by
      rw [hg.group_publicOf]
      exact h₂
    obtain ⟨k, ha, he, hl⟩ := answer_of_sealed? (ht n) h₀ h₁ hsize (Datum.isNone_text label)
    refine ⟨⟨k, .bytes (t n).message, .none⟩, ?_, rfl, he, hl⟩
    have he : (practice g key source s t).sealing (.int start) (.int stop) (.text label) = _ :=
      encapsulate_eq g _ (g.publicOf key) source _ _ _
    rw [hg.group_publicOf] at ha he
    rw [he]
    exact hd.answered ha
  opened n := by
    have ho := opened?_of_sealed? hg (ht n)
    have hl : ((t n).message.length : Int) = (Suite.ofGroup key.group).encapsulationSize := by
      rw [length_of_opened? ho, Suite.encapsulationSize_ofGroup]
    simp only [Practice.opens, practice, if_pos hl, toOption_openWith, ho, Option.map_some]
  spans m secret h := by
    obtain ⟨t, ho, rfl⟩ := Option.map_eq_some_iff.1 ((toOption_openWith m).symm.trans h)
    rw [size_secret, group_of_opened? ho]
    rfl

private theorem opens_flipped {c : PrimeCurve} (hc : key.group = .prime c) {m : Bytes}
    (ho : (opened? g key m).isSome = true) : opened? g key (flipped m) = none := by
  obtain ⟨t, ho⟩ := Option.isSome_iff_exists.1 ho
  obtain ⟨ephemeral, _, hd, -⟩ := opened?_eq_some.1 ho
  have hmark : ∀ mark rest, mark ≠ 4 → key.group.decode? (mark :: rest) = none := by
    intro mark rest hm
    simp [hc, Group.decode?, PrimeCurve.decode?, hm]
  have hnone : key.group.decode? (flipped m) = none := by
    cases m with
    | nil =>
      rw [hc] at hd
      cases hd
    | cons mark rest =>
      by_cases hm : mark = 4
      · subst hm
        exact hmark _ rest (by decide)
      · rw [hmark mark rest hm] at hd
        cases hd
  rw [opened?, hnone]
  rfl

private theorem opened_of_opens {m x : Bytes} (h : (practice g key source s t).opens m = some x) :
    (opened? g key m).isSome = true := by
  rw [Practice.opens] at h
  split at h
  · have hr : (opened? g key m).map secret = some x := (toOption_openWith m).symm.trans h
    cases ho : opened? g key m with
    | none =>
      rw [ho] at hr
      cases hr
    | some u => rfl
  · cases h

private theorem passes_tampering {b : Bench σ} {c : PrimeCurve} (hc : key.group = .prime c)
    (h : Lawful b (practice g key source s t)) (trials workers : Int) :
    Passes (practice g key source s t) trials workers .tamperingIsNotSilent := by
  intro hx
  have ho := h.opened (start (practice g key source s t) trials workers .tamperingIsNotSilent)
  have hf := opened_of_opens hx
  rw [opens_flipped hc (opened_of_opens ho)] at hf
  cases hf

/-- Both sides are bound without moving the state. -/
theorem staged {params : ParamsValue} (hg : g.Lawful)
    (hc : checkParams (Suite.ofGroup key.group) params = .ok ()) (name : Datum) {entropy : Source σ}
    {choice : SourceChoice σ} (hs : choice.resolve entropy = .ok source) (title : Datum) (s : σ)
    (trials workers : Int) :
    Staged (named name g entropy) (.publicKey (g.publicOf key)) (.privateKey key) params choice title s
      (bench g key source trials workers).enc (bench g key source trials workers).dec s := by
  obtain ⟨log, he⟩ := newEncapsulator_yields g name entropy (.publicKey (g.publicOf key)) params choice
  obtain ⟨more, hd⟩ := newDecapsulator_yields g name entropy (.privateKey key) params
  simp only [ownPublic, ownPrivate, hs, ok_bind, hg.group_publicOf, hc] at he hd
  refine ⟨titled rfl title, ?_, ?_, ?_⟩
  · rw [he, bench, hg.group_publicOf]
    rfl
  · rw [hd]
    rfl
  · rw [he, hd]

end DhKem

namespace MockKem
variable {k k' : MockKey} {p : MockParameters} {secret message : Int} {material : Bytes}
  {source : Source σ} {s : σ} {nonce : Nat → Bytes}

def secretBytes (p : MockParameters) (material nonce : Bytes) : Bytes :=
  (secretOf (.bytes material) p (.bytes nonce)).toOption.getD []

def practice (k : MockKey) (p : MockParameters) (secret message : Int) (material : Bytes)
    (source : Source σ) (s : σ) (nonce : Nat → Bytes) : Practice σ where
  secretSize := secret
  messageSize := message
  offers := offers p secret
  sealing := encapsulate k p source
  reads m := (openWith (.bytes material) p m).toOption
  place := source.drawn (nonceSize message) s
  turn n := ⟨nonce n ++ tag material (nonce n), secretBytes p material (nonce n)⟩

def bench (k k' : MockKey) (p : MockParameters) (source : Source σ) (trials workers : Int) : Bench σ :=
  ⟨sender k p source, receiver k' p, trials, workers⟩

private theorem openWith_turn (hp : InRange p secret message) (material nonce : Bytes) :
    openWith (.bytes material) p (nonce ++ tag material nonce) = .ok (secretBytes p material nonce) := by
  obtain ⟨b, hb, -⟩ := secretOf_bytes hp material nonce
  rw [openWith_append _ p (tagOf_bytes material nonce) (length_tag material nonce), secretBytes, hb]
  rfl

theorem lawful (hp : InRange p secret message) (hk : k.material = .bytes material)
    (hk' : k'.material = .bytes material) (hd : source.Delivers (nonceSize message) s nonce)
    (trials workers : Int) :
    Lawful (bench k k' p source trials workers)
      (practice k p secret message material source s nonce) where
  enc := fixed_terms hp _
  dec := fixed_terms hp _
  answers := supports_offers hp.secretSize _
  receiverAnswers := supports_offers hp.secretSize _
  quiet := quiet_terms _ _
  encapsulate := rfl
  decapsulate := by
    have hh : decapsulate k' p = fun m start stop label =>
        (liftM (SecretKey.cutFrom (openWith (.bytes material) p m).toOption start stop label) :
          Act σ SecretKey) := by
      funext m start stop label
      exact decapsulate_eq hp hk' m start stop label
    exact congrArg (Terms.receive (terms "MockDecapsulator" p)) hh
  secret_pos := hp.secret_pos
  secret_small := Int.lt_of_le_of_lt hp.secret_le (by decide)
  message_pos := by
    have h := hp.message_ge
    simp only [minNonceSize, tagSize] at h
    simp only [practice]
    omega
  whole := by
    have h := hp.secret_pos
    simp only [practice, offers, beq_self_eq_true, Bool.and_true, Bool.or_true, decide_eq_true_eq]
    omega
  seals n start stop label h₀ h₁ h₂ := by
    have hj : k.material.joinable = .ok material := by rw [hk, Datum.joinable_bytes]
    obtain ⟨b, encoded, hb, ho, -, ha⟩ := answer_bytes hp hj (nonce n)
    obtain ⟨key, hkey, he, hl⟩ := SecretKey.slice_bytes h₀ h₁ (hb ▸ h₂) (Datum.isNone_text label)
    rw [hk, openWith_turn hp] at ho
    cases ho
    have hs : (practice k p secret message material source s nonce).sealing (.int start) (.int stop)
        (.text label) = _ := encapsulate_eq k hp.encapsulationSize source _ _ _
    rw [hs]
    refine ⟨⟨key, .bytes (nonce n ++ tag material (nonce n)), .bytes encoded⟩, hd.answered ?_, rfl, he, hl⟩
    rw [ha, hkey]
    rfl
  opened n := by
    have hn := Source.length_read (hd n)
    simp only [Practice.opens, practice, if_pos (length_append_tag hn), openWith_turn hp]
    rfl
  spans m secret h := length_of_openWith hp h

theorem staged (hp : InRange p secret message) (k k' : MockKey) (name : Datum) {entropy : Source σ}
    {choice : SourceChoice σ} (hs : choice.resolve entropy = .ok source) (title : Datum) (s : σ)
    (trials workers : Int) :
    Staged (named name entropy) (.mock .sender k) (.mock .receiver k') (.mock p) choice title s
      (bench k k' p source trials workers).enc (bench k k' p source trials workers).dec s := by
  obtain ⟨log, he⟩ := newEncapsulator_yields name entropy (.mock .sender k) (.mock p) choice
  obtain ⟨more, hd⟩ := newDecapsulator_yields name entropy (.mock .receiver k') (.mock p)
  simp only [checkKey, hs, ok_bind, hp.checkParams] at he hd
  refine ⟨titled rfl title, ?_, ?_, ?_⟩
  · rw [he]
    rfl
  · rw [hd]
    rfl
  · rw [he, hd]

end MockKem

/-- Six checks pass for every matching pair of both providers and every source that delivers; freshness,
tampering and concurrency are decided by the turns they take, and on a curve tampering never goes
unnoticed. -/
theorem builtin_blameless (σ : Type) :
    (∀ {g : KeyAgreement} {key : PrivateKey} {params : ParamsValue} {entropy source : Source σ}
      {choice : SourceChoice σ} {s : σ} {material : Nat → Bytes} {t : Nat → Transcript} {workers : Int}
      (name title : Datum) (trials : Int),
      g.Lawful → DhKem.checkParams (Suite.ofGroup key.group) params = .ok () →
      choice.resolve entropy = .ok source →
      source.Delivers (Suite.ofGroup key.group).privateKeySize s material →
      (∀ n, Transcript.sealed? g (g.publicOf key) (material n) = some (t n)) → 1 ≤ workers →
      Fair ((check (DhKem.named name g entropy) (.publicKey (g.publicOf key)) (.privateKey key) params
          trials workers choice title).run s).result (DhKem.practice g key source s t) trials workers ∧
        ∀ c, key.group = .prime c →
          Passes (DhKem.practice g key source s t) trials workers .tamperingIsNotSilent) ∧
    ∀ {k k' : MockKey} {p : MockParameters} {secret message : Int} {material : Bytes}
      {entropy source : Source σ} {choice : SourceChoice σ} {s : σ} {nonce : Nat → Bytes} {workers : Int}
      (name title : Datum) (trials : Int),
      k.material = .bytes material → k'.material = .bytes material → p.secretSize = .int secret →
      p.encapsulationSize = .int message → MockKem.checkParams (.mock p) = .ok p →
      choice.resolve entropy = .ok source →
      source.Delivers (MockKem.nonceSize message) s nonce → 1 ≤ workers →
      Fair ((check (MockKem.named name entropy) (.mock .sender k) (.mock .receiver k') (.mock p) trials
          workers choice title).run s).result (MockKem.practice k p secret message material source s nonce)
        trials workers := by
  constructor
  · intro g key params entropy source choice s material t workers name title trials hg hc hs hd ht hw
    have hl := DhKem.lawful hg hd ht trials workers
    exact ⟨hl.check_fair hw (DhKem.staged hg hc name hs title s trials workers), fun _ hcurve =>
      DhKem.passes_tampering hcurve hl trials workers⟩
  · intro k k' p secret message material entropy source choice s nonce workers name title trials
      hk hk' hs hm hc hsource hd hw
    obtain ⟨-, hp⟩ := MockKem.checkParams_ok hs hm hc
    exact (MockKem.lawful hp hk hk' hd trials workers).check_fair hw
      (MockKem.staged hp k k' name hsource title s trials workers)

/-- A source of zeros alone gives both providers their turns. Round trips pass all the same, and it is
freshness that fails. -/
theorem builtin_blameless_zeros :
    ∃ ephemeral, let g := DhKem.confined ephemeral DhKem.zeroKey
      let source : Source Unit := ⟨fun wanted => Pure.pure (.bytes (Bytes.zeros wanted.whole.toNat))⟩
      let k : MockKey := ⟨"k", .bytes (Bytes.zeros 32), MockKey.defaultAlgorithm⟩
      let p : MockParameters := ⟨.int 1, .int 32, .bool false⟩
      (∃ report, ((check (DhKem.provider g source) (.publicKey (g.publicOf DhKem.zeroKey))
          (.privateKey DhKem.zeroKey) .absent 0 1 (.supplied source) .none).run ()).result = .ok report ∧
        Check.roundTrip.name ∈ report.passed ∧ Fails report .encapsulationIsFresh) ∧
      ∃ report, ((check (MockKem.provider source) (.mock .sender k) (.mock .receiver k)
          (.mock p) 3 2 (.supplied source) .none).run ()).result = .ok report ∧
        Check.slicingIsConsistentOrRefused.name ∈ report.passed ∧ Fails report .encapsulationIsFresh := by
  obtain ⟨ephemeral, hd, hx, -⟩ := DhKem.agreed_zero
  obtain ⟨agreed, ha⟩ := Option.isSome_iff_exists.1 hx
  refine ⟨ephemeral, ?_⟩
  intro g source k p
  have hs : g.exchange ephemeral (g.publicOf DhKem.zeroKey) = some agreed := by
    simp [g, DhKem.confined, ha]
  have ht : ∃ t, Transcript.sealed? g (g.publicOf DhKem.zeroKey) (Bytes.zeros 32) = some t :=
    ⟨_, Transcript.sealed?_eq_some.2 ⟨ephemeral, hd, Transcript.sealedBy?_eq_some.2 ⟨agreed, hs, rfl⟩⟩⟩
  obtain ⟨t, ht⟩ := ht
  have hdraw : source.Delivers 32 () fun _ => Bytes.zeros 32 := fun _ => rfl
  have hnonce : source.Delivers (MockKem.nonceSize 32) () fun _ => Bytes.zeros 16 := fun _ => rfl
  have hsource : (SourceChoice.supplied source).resolve source = .ok source := rfl
  have hparams : DhKem.checkParams (Suite.ofGroup DhKem.zeroKey.group) .absent = .ok () := rfl
  have hall := builtin_blameless Unit
  obtain ⟨report, hr, hc⟩ := (hall.1 DhKem.typeName .none 0 (DhKem.lawful_confined ephemeral DhKem.zeroKey)
    hparams hsource hdraw (t := fun _ => t) (fun _ => ht) (Int.le_refl 1)).1
  have hmaterial : k.material = .bytes (Bytes.zeros 32) := rfl
  have hsize : p.secretSize = .int 1 := rfl
  obtain ⟨mock, hm, hc'⟩ := hall.2 MockKem.typeName .none 3 hmaterial hmaterial hsize rfl rfl hsource hnonce
    (by decide : (1 : Int) ≤ 2)
  exact ⟨⟨report, hr, (hc .roundTrip).1.2 trivial, (hc .encapsulationIsFresh).2.2 fun h => h.1 rfl⟩,
    ⟨mock, hm, (hc' .slicingIsConsistentOrRefused).1.2 trivial,
      (hc' .encapsulationIsFresh).2.2 fun h => h.1 rfl⟩⟩

end KeyCapsule
