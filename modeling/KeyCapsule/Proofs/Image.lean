import KeyCapsule.Proofs.Contract
import KeyCapsule.Proofs.Draw
import KeyCapsule.Proofs.Factory
import KeyCapsule.Proofs.Refusal

/-! The messages of the stand-in. A sender emits one message for every nonce, and a receiver of the same
material and parameters accepts these messages and no others, each with the key that went with it. -/
namespace KeyCapsule.MockKem

variable {σ τ : Type} {k k' : MockKey} {p : MockParameters} {material : Bytes} {secret message : Int}

/-- The part of a message in front of its tag. -/
def nonceOf (message : Int) (b : Bytes) : Bytes := b.take (nonceSize message).toNat

private theorem nonceOf_append {nonce : Bytes} (h : (nonce.length : Int) = nonceSize message) (t : Bytes) :
    nonceOf message (nonce ++ t) = nonce := by
  rw [nonceOf, ← h, Int.toNat_natCast, List.take_left]

theorem length_append_tag {nonce : Bytes} (h : (nonce.length : Int) = nonceSize message) :
    ((nonce ++ tag material nonce).length : Int) = message := by
  rw [List.length_append, length_tag, Int.natCast_add, h, nonceSize]
  omega

private theorem eq_append_tag {b : Bytes} (hb : (b.length : Int) = message)
    (ht : Tagged material b) :
    ((nonceOf message b).length : Int) = nonceSize message ∧
      b = nonceOf message b ++ tag material (nonceOf message b) := by
  obtain ⟨nonce, rfl⟩ := ht
  have hn : (nonce.length : Int) = nonceSize message := by
    rw [List.length_append, length_tag] at hb
    rw [nonceSize, ← hb]
    omega
  rw [nonceOf_append hn]
  exact ⟨hn, rfl⟩

/-- A nonce with the right tag behind it opens to the secret of the nonce. -/
theorem openWith_append (material : Datum) (p : MockParameters) {nonce t : Bytes}
    (ht : tagOf material (.bytes nonce) = .ok t) (hl : t.length = tagSize) :
    openWith material p (nonce ++ t) = secretOf material p (.bytes nonce) := by
  have hn : (nonce ++ t).length - tagSize = nonce.length := by simp [hl]
  rw [openWith, hn, List.take_left, List.drop_left, ht]
  cases secretOf material p (.bytes nonce) with
  | error e => rfl
  | ok s => simp [ok_bind]

/-- Parameters in range serve every key. -/
theorem newEncapsulator_ok (hp : InRange p secret message) (k : MockKey) (name : Datum)
    {entropy source : Source σ} {choice : SourceChoice σ} (hc : choice.resolve entropy = .ok source)
    (s : σ) :
    (((named name entropy).newEncapsulator (.mock .sender k) (.mock p) choice).run s).result =
      .ok (sender k p source) := by
  rw [(newEncapsulator_yields name entropy (.mock .sender k) (.mock p) choice).result, hc, hp.checkParams]
  rfl

theorem newDecapsulator_ok (hp : InRange p secret message) (k : MockKey) (name : Datum)
    (entropy : Source σ) (s : σ) :
    (((named name entropy).newDecapsulator (.mock .receiver k) (.mock p)).run s).result =
      .ok (receiver k p) := by
  rw [(newDecapsulator_yields name entropy (.mock .receiver k) (.mock p)).result, hp.checkParams]
  rfl

/-- What either side grants, a sender's plan grants. -/
theorem plan_grant {type : String} {start stop label : Datum} {s : σ} {w : Datum × Datum}
    (hw : (((terms type p).grant start stop label).run s).result = .ok w) (k : MockKey) (message : Int) :
    (plan k p message).grant start stop label = .ok w := by
  rw [grant_eq] at hw
  exact Terms.verdict_ok _ hw

private theorem grant_iff (start stop label : Datum) (w : Datum × Datum) (s : σ) (u : τ) :
    (((terms "MockEncapsulator" p).grant start stop label).run s).result = .ok w ↔
      (((terms "MockDecapsulator" p).grant start stop label).run u).result = .ok w := by
  rw [grant_eq, grant_eq]
  exact ⟨Terms.verdict_ok _, Terms.verdict_ok _⟩

/-- The whole secret is always to be had. -/
theorem grant_whole (hp : InRange p secret message) (type : String) (s : σ) :
    (((terms type p).grant (.int 0) .none SecretKey.generic).run s).result =
      .ok (.int 0, .int secret) := by
  have hs := (fixed_terms (σ := σ) hp type).secretSize
  have h₁ := hp.secret_pos
  rw [Terms.grant_absent hs, Terms.grant_int hs]
  refine ⟨rfl, ⟨Int.le_refl 0, by omega, Int.le_refl _⟩, ?_, rfl⟩
  have hw : supported p (.int 0) (.int secret) SecretKey.generic = .ok true := by
    have hlt : (0 : Int) < secret := by omega
    simp only [supported, Datum.less_int, ok_bind, hlt, hp.secretSize]
    simp [SecretKey.generic]
    rfl
  change ((supports p (.int 0) (.int secret) SecretKey.generic).run s).result = .ok true
  rw [supports_eq, hw]
  rfl

private theorem window_of_grant (hp : InRange p secret message) {type : String} {start : Int}
    {stop : Option Int} {label : Datum} {s : σ} {w : Datum × Datum}
    (hw : (((terms type p).grant (.int start) (Datum.ofBound stop) label).run s).result = .ok w) :
    label.isNone = false ∧ (0 ≤ start ∧ start < Terms.tail secret stop ∧ Terms.tail secret stop ≤ secret) ∧
      w = (.int start, .int (Terms.tail secret stop)) := by
  have hs := (fixed_terms (σ := σ) hp type).secretSize
  rw [Terms.grant_ofBound hs] at hw
  have hlt := lt_of_grant hp hw
  obtain ⟨hl, ⟨h₀, -, h₂⟩, -, hw⟩ := (Terms.grant_int hs).1 hw
  exact ⟨hl, ⟨h₀, hlt, h₂⟩, hw⟩

/-- A granted request is one draw and the answer to what it delivers. -/
theorem sender_run (hp : InRange p secret message) (source : Source σ) {start stop label : Datum}
    {first last : Datum} (hg : (plan k p message).grant start stop label = .ok (first, last)) (s : σ) :
    let drawn := (source.read (.int (nonceSize message))).run s
    ((sender k p source).encapsulate start stop label).run s =
      ⟨drawn.result >>= fun nonce => answer k p nonce first last label, drawn.log, drawn.state⟩ := by
  rw [sender_serves k hp.encapsulationSize]
  exact Plan.run_granted source s hg

private theorem answer_received (hp : InRange p secret message) (hk : k.material = .bytes material)
    (hk' : k'.material = .bytes material) {start : Int} {stop : Option Int} {label : Datum} {u : τ}
    {w : Datum × Datum}
    (hw : (((terms "MockDecapsulator" p).grant (.int start) (Datum.ofBound stop) label).run u).result =
      .ok w) {nonce : Bytes} (hn : (nonce.length : Int) = nonceSize message) :
    ∃ key params, answer k p nonce w.1 w.2 label =
        .ok ⟨key, .bytes (nonce ++ tag material nonce), .bytes params⟩ ∧
      params.length = 5 ∧ (key.encoded.length : Int) = Terms.tail secret stop - start ∧
      key.algorithm = label ∧
      ((receiver k' p).decapsulate (.bytes (nonce ++ tag material nonce)) (.int start)
        (Datum.ofBound stop) label).run u = ⟨.ok key, [], u⟩ := by
  obtain ⟨hl, ⟨h₀, h₁, h₂⟩, rfl⟩ := window_of_grant hp hw
  obtain ⟨params, he, h5⟩ := encode_ok hp
  obtain ⟨b, hb, hlen⟩ := secretOf_bytes hp material nonce
  have hin : Terms.tail secret stop ≤ b.length := by rwa [hlen]
  obtain ⟨key, hkey, henc, halg⟩ := SecretKey.slice_bytes h₀ h₁ hin hl
  have hs : sealWith (.bytes material) p nonce = .ok (nonce ++ tag material nonce, b) :=
    bind_eq_ok.2 ⟨b, hb, bind_eq_ok.2 ⟨_, tagOf_bytes material nonce, rfl⟩⟩
  have ho : openWith (.bytes material) p (nonce ++ tag material nonce) = .ok b :=
    (openWith_append _ p (tagOf_bytes _ _) (length_tag _ _)).trans hb
  have hsize := (fixed_terms (σ := τ) hp "MockDecapsulator").secretSize
  refine ⟨key, params, ?_, h5, ?_, halg, ?_⟩
  · simp only [answer, hk, hs, ok_bind, hkey, he]
    rfl
  · rw [henc, Bytes.length_cut h₀ (Int.le_of_lt h₁) hin]
  · rw [Terms.grant_ofBound hsize] at hw
    have hr := Terms.receive_cut (fixed_terms hp _) (quiet_terms _ _) (decapsulate_eq hp hk')
      (fun _ _ => length_of_openWith hp) (nonce ++ tag material nonce) h₁ hw
    rw [if_pos (length_append_tag hn), ho] at hr
    obtain ⟨j, hrun, hje, hja⟩ := hr
    cases SecretKey.eq_of_parts (hje.trans henc.symm) (hja.trans halg.symm)
    exact (congrFun (Terms.receive_ofBound hsize _ _ _ _ _) u).trans hrun

private theorem receiver_refuses (hp : InRange p secret message) (hk' : k'.material = .bytes material)
    {start : Int} {stop : Option Int} {label : Datum} {u : τ} {w : Datum × Datum}
    (hw : (((terms "MockDecapsulator" p).grant (.int start) (Datum.ofBound stop) label).run u).result =
      .ok w) {b : Bytes} (hb : ¬ ((b.length : Int) = message ∧ Tagged material b)) :
    ((receiver k' p).decapsulate (.bytes b) (.int start) (Datum.ofBound stop) label).run u =
      (receiver k' p).refusal u := by
  have hsize := (fixed_terms (σ := τ) hp "MockDecapsulator").secretSize
  have h₁ := (window_of_grant hp hw).2.1.2.1
  rw [Terms.grant_ofBound hsize] at hw
  have hr := Terms.receive_cut (fixed_terms hp _) (quiet_terms _ _) (decapsulate_eq hp hk')
    (fun _ _ => length_of_openWith hp) b h₁ hw
  have hn : (if (b.length : Int) = message then (openWith (.bytes material) p b).toOption else none) =
      none := by
    split
    · next hlen =>
      obtain ⟨ht, -⟩ | ⟨-, ho⟩ := openWith_bytes hp material b
      · exact absurd ⟨hlen, ht⟩ hb
      · rw [ho]
        rfl
    · rfl
  rw [hn] at hr
  exact (congrFun (Terms.receive_ofBound hsize _ _ _ _ _) u).trans hr

def Emits (k : MockKey) (p : MockParameters) (message : Int) (nonce : Bytes) (start : Int)
    (stop : Option Int) (label : Datum) (r : Encapsulated) : Prop :=
  ∃ (σ : Type) (source : Source σ) (enc : Encapsulator σ) (s : σ), BoundSender k p source enc ∧
    ((source.read (.int (nonceSize message))).run s).result = .ok nonce ∧
      ((enc.encapsulate (.int start) (Datum.ofBound stop) label).run s).result = .ok r

private theorem emits_iff (hp : InRange p secret message) {nonce : Bytes} {start : Int} {stop : Option Int}
    {label : Datum} {r : Encapsulated} {first last : Datum}
    (hg : (plan k p message).grant (.int start) (Datum.ofBound stop) label = .ok (first, last)) :
    Emits k p message nonce start stop label r ↔
      (nonce.length : Int) = nonceSize message ∧ answer k p nonce first last label = .ok r := by
  constructor
  · rintro ⟨σ, source, enc, s, he, hn, hr⟩
    obtain ⟨q, hq, rfl⟩ := he.eq_sender
    obtain ⟨rfl, -⟩ := checkParams_ok hp.secretSize hp.encapsulationSize hq
    rw [sender_run hp source hg, hn] at hr
    exact ⟨Source.length_read hn, hr⟩
  · rintro ⟨hn, hr⟩
    let source : Source Unit := ⟨fun _ => pure (.bytes nonce)⟩
    have hread : ((source.read (.int (nonceSize message))).run ()).result = .ok nonce := by
      rw [← hn]
      exact Source.accept_bytes nonce
    have he : BoundSender k p source (sender k p source) :=
      ⟨typeName, source, .absent, (), rfl, newEncapsulator_ok hp k _ rfl ()⟩
    refine ⟨Unit, source, sender k p source, (), he, hread, ?_⟩
    rw [sender_run hp source hg, hread]
    exact hr

/-- A receiver that answers one request for every byte string by what a sender emits. -/
structure Images (k : MockKey) (p : MockParameters) (message start : Int) (stop : Option Int)
    (label : Datum) (u : τ) (dec : Decapsulator τ) : Prop where
  /-- For every nonce there is one thing to emit. -/
  emits : ∀ nonce : Bytes, (nonce.length : Int) = nonceSize message →
    ∃ r, Emits k p message nonce start stop label r ∧
      ∀ r', Emits k p message nonce start stop label r' → r' = r
  /-- A message is accepted if it is emitted for its nonce, with the key that is emitted with it. -/
  accepts : ∀ (b : Bytes) (key : SecretKey),
    (dec.decapsulate (.bytes b) (.int start) (Datum.ofBound stop) label).run u = ⟨.ok key, [], u⟩ ↔
      (b.length : Int) = message ∧ ∃ r, Emits k p message (nonceOf message b) start stop label r ∧
        r.encapsulation = .bytes b ∧ r.key = key
  /-- Every other message is refused. -/
  refuses : ∀ b : Bytes,
    ¬ ((b.length : Int) = message ∧
      ∃ r, Emits k p message (nonceOf message b) start stop label r ∧ r.encapsulation = .bytes b) →
    (dec.decapsulate (.bytes b) (.int start) (Datum.ofBound stop) label).run u = dec.refusal u
  /-- Beside an accepted message no other one with its nonce is accepted. -/
  tampered : ∀ {b b' : Bytes} {key : SecretKey},
    ((dec.decapsulate (.bytes b) (.int start) (Datum.ofBound stop) label).run u).result = .ok key →
    nonceOf message b' = nonceOf message b → b' ≠ b →
    (dec.decapsulate (.bytes b') (.int start) (Datum.ofBound stop) label).run u = dec.refusal u

private theorem emitted_iff (hp : InRange p secret message) (hk : k.material = .bytes material) {start : Int}
    {stop : Option Int} {label : Datum} {u : τ} {w : Datum × Datum}
    (hw : (((terms "MockDecapsulator" p).grant (.int start) (Datum.ofBound stop) label).run u).result =
      .ok w) (b : Bytes) :
    ((b.length : Int) = message ∧
        ∃ r, Emits k p message (nonceOf message b) start stop label r ∧ r.encapsulation = .bytes b) ↔
      (b.length : Int) = message ∧ Tagged material b := by
  have hemits : ∀ r, Emits k p message (nonceOf message b) start stop label r ↔ _ :=
    fun _ => emits_iff hp (plan_grant hw k message)
  refine and_congr_right fun hb => ⟨?_, fun ht => ?_⟩
  · rintro ⟨r, hr, he⟩
    obtain ⟨hn, hr⟩ := (hemits r).1 hr
    obtain ⟨key, params, ha, -⟩ := answer_received hp hk hk hw hn
    cases hr.symm.trans ha
    exact ⟨_, (Datum.bytes.inj he).symm⟩
  · obtain ⟨hn, he⟩ := eq_append_tag hb ht
    obtain ⟨key, params, ha, -⟩ := answer_received hp hk hk hw hn
    exact ⟨_, (hemits _).2 ⟨hn, ha⟩, congrArg Datum.bytes he.symm⟩

/-- A receiver accepts what is emitted, as its own key and the sender's come from one material. -/
private theorem receiver_images (hp : InRange p secret message) (hk : k.material = .bytes material)
    (hk' : k'.material = .bytes material) {start : Int} {stop : Option Int} {label : Datum} {u : τ}
    {w : Datum × Datum}
    (hw : (((terms "MockDecapsulator" p).grant (.int start) (Datum.ofBound stop) label).run u).result =
      .ok w) :
    Images k p message start stop label u (receiver k' p) := by
  have hemits : ∀ nonce r, Emits k p message nonce start stop label r ↔ _ :=
    fun _ _ => emits_iff hp (plan_grant hw k message)
  have hanswer := fun (nonce : Bytes) (hn : (nonce.length : Int) = nonceSize message) =>
    answer_received hp hk hk' hw hn
  constructor
  case emits =>
    intro nonce hn
    obtain ⟨key, params, ha, -⟩ := hanswer nonce hn
    refine ⟨_, (hemits _ _).2 ⟨hn, ha⟩, fun r hr => ?_⟩
    exact Except.ok.inj (((hemits _ _).1 hr).2.symm.trans ha)
  case accepts =>
    intro b key
    constructor
    · intro h
      by_cases hb : (b.length : Int) = message ∧ Tagged material b
      · obtain ⟨hn, he⟩ := eq_append_tag hb.1 hb.2
        obtain ⟨j, params, ha, -, -, -, hj⟩ := hanswer _ hn
        rw [← he, h] at hj
        cases hj
        exact ⟨hb.1, _, (hemits _ _).2 ⟨hn, ha⟩, congrArg Datum.bytes he.symm, rfl⟩
      · rw [receiver_refuses hp hk' hw hb] at h
        cases h
    · rintro ⟨hb, r, hr, he, rfl⟩
      obtain ⟨hn, hr⟩ := (hemits _ _).1 hr
      obtain ⟨j, params, ha, -, -, -, hj⟩ := hanswer _ hn
      cases hr.symm.trans ha
      rwa [Datum.bytes.inj he] at hj
  case refuses =>
    exact fun b hb => receiver_refuses hp hk' hw fun ht => hb ((emitted_iff hp hk hw b).2 ht)
  case tampered =>
    intro b b' key hkey hn hne
    refine receiver_refuses hp hk' hw fun hb' => hne ?_
    by_cases hb : (b.length : Int) = message ∧ Tagged material b
    · rw [(eq_append_tag hb'.1 hb'.2).2, (eq_append_tag hb.1 hb.2).2, hn]
    · rw [receiver_refuses hp hk' hw hb] at hkey
      cases hkey

structure Paired (k k' : MockKey) (p : MockParameters) (secret message : Int) : Prop where
  /-- Both sides are to be had for parameters in range, and for no others. -/
  admits : ∀ {σ : Type} (name : Datum) (entropy : Source σ) {source : Source σ} {choice : SourceChoice σ}
    (s : σ), choice.resolve entropy = .ok source →
    ((∃ enc, (((named name entropy).newEncapsulator (.mock .sender k) (.mock p) choice).run s).result =
        .ok enc) ↔ InRange p secret message) ∧
      ((∃ dec, (((named name entropy).newDecapsulator (.mock .receiver k') (.mock p)).run s).result =
        .ok dec) ↔ InRange p secret message)
  /-- Both sides grant the same requests, and the whole secret under the general label always. -/
  grants : ∀ {σ τ : Type} {source : Source σ} {enc : Encapsulator σ} {dec : Decapsulator τ},
    BoundSender k p source enc → BoundReceiver k' p dec →
    (∀ start stop label w s u, ((enc.grant start stop label).run s).result = .ok w ↔
      ((dec.grant start stop label).run u).result = .ok w) ∧
    ∀ s, ((enc.grant (.int 0) .none SecretKey.generic).run s).result = .ok (.int 0, .int secret)
  /-- A granted request whose draw delivers bytes is served, with all parts of the right size. -/
  serves : ∀ {σ : Type} {source : Source σ} {enc : Encapsulator σ}, BoundSender k p source enc →
    ∀ {start : Int} {stop : Option Int} {label : Datum} {s : σ} {w : Datum × Datum} {nonce : Bytes},
    ((enc.grant (.int start) (Datum.ofBound stop) label).run s).result = .ok w →
    let drawn := (source.read (.int (nonceSize message))).run s
    drawn.result = .ok nonce →
    ∃ key b params, (enc.encapsulate (.int start) (Datum.ofBound stop) label).run s =
        ⟨.ok ⟨key, .bytes b, .bytes params⟩, drawn.log, drawn.state⟩ ∧
      (b.length : Int) = message ∧ nonceOf message b = nonce ∧ params.length = 5 ∧
      (key.encoded.length : Int) = Terms.tail secret stop - start ∧ key.algorithm = label
  /-- A receiver answers a granted request by the image of the senders. -/
  images : ∀ {τ : Type} {dec : Decapsulator τ}, BoundReceiver k' p dec →
    ∀ {start : Int} {stop : Option Int} {label : Datum} {u : τ} {w : Datum × Datum},
    ((dec.grant (.int start) (Datum.ofBound stop) label).run u).result = .ok w →
    Images k p message start stop label u dec

/-- A receiver of the same material and parameters accepts exactly what a sender emits. -/
theorem accepts_image (hk : k.material = .bytes material) (hk' : k'.material = .bytes material)
    (hs : p.secretSize = .int secret) (hm : p.encapsulationSize = .int message) :
    Paired k k' p secret message := by
  constructor
  case admits =>
    intro σ name entropy source choice s hc
    constructor
    · constructor
      · rintro ⟨enc, h⟩
        obtain ⟨q, hq, -⟩ := BoundSender.eq_sender ⟨name, entropy, choice, s, hc, h⟩
        exact (checkParams_ok hs hm hq).2
      · exact fun hp => ⟨_, newEncapsulator_ok hp k name hc s⟩
    · constructor
      · rintro ⟨dec, h⟩
        obtain ⟨q, hq, -⟩ := BoundReceiver.eq_receiver ⟨name, entropy, s, h⟩
        exact (checkParams_ok hs hm hq).2
      · exact fun hp => ⟨_, newDecapsulator_ok hp k' name entropy s⟩
  case grants =>
    intro σ τ source enc dec he hd
    obtain ⟨q, hq, rfl⟩ := he.eq_sender
    obtain ⟨rfl, hp⟩ := checkParams_ok hs hm hq
    obtain ⟨q, hq, rfl⟩ := hd.eq_receiver
    obtain ⟨rfl, -⟩ := checkParams_ok hs hm hq
    exact ⟨grant_iff, grant_whole hp _⟩
  case serves =>
    intro σ source enc he start stop label s w nonce hw drawn hd
    obtain ⟨q, hq, rfl⟩ := he.eq_sender
    obtain ⟨rfl, hp⟩ := checkParams_ok hs hm hq
    have hn := Source.length_read hd
    obtain ⟨key, params, ha, h5, hkey, hl, -⟩ :=
      answer_received hp hk hk' ((grant_iff _ _ _ _ _ s).1 hw) hn
    have hr := sender_run hp source (plan_grant hw k message) s
    change _ = (⟨drawn.result >>= _, _, _⟩ : Outcome σ Encapsulated) at hr
    rw [hd, ok_bind, ha] at hr
    exact ⟨key, _, params, hr, length_append_tag hn, nonceOf_append hn _, h5, hkey, hl⟩
  case images =>
    intro τ dec hd start stop label u w hw
    obtain ⟨q, hq, rfl⟩ := hd.eq_receiver
    obtain ⟨rfl, hp⟩ := checkParams_ok hs hm hq
    exact receiver_images hp hk hk' hw

/-- At the largest sizes a nonce of zeros is sealed and opened again, and another message with this nonce
is refused. -/
theorem accepts_image_largest :
    let k : MockKey := ⟨"sender", .bytes (Bytes.zeros 32), MockKey.defaultAlgorithm⟩
    let k' : MockKey := ⟨"receiver", .bytes (Bytes.zeros 32), MockKey.defaultAlgorithm⟩
    let p : MockParameters := ⟨.int 8160, .int 65535, .bool false⟩
    let source : Source Unit := ⟨fun _ => pure (.bytes (Bytes.zeros 65519))⟩
    k.material = .bytes (Bytes.zeros 32) ∧ k'.material = .bytes (Bytes.zeros 32) ∧
      p.secretSize = .int 8160 ∧ p.encapsulationSize = .int 65535 ∧
      ∃ (enc : Encapsulator Unit) (dec : Decapsulator Unit) (key : SecretKey) (b params : Bytes),
        BoundSender k p source enc ∧ BoundReceiver k' p dec ∧
        enc.whole.run () = ⟨.ok ⟨key, .bytes b, .bytes params⟩, [], ()⟩ ∧
        b.length = 65535 ∧ params.length = 5 ∧ key.encoded.length = 8160 ∧
        (dec.whole (.bytes b)).run () = ⟨.ok key, [], ()⟩ ∧
        ∀ b', nonceOf 65535 b' = nonceOf 65535 b → b' ≠ b →
          (dec.whole (.bytes b')).run () = dec.refusal () := by
  intro k k' p source
  refine ⟨rfl, rfl, rfl, rfl, ?_⟩
  have hp : InRange p 8160 65535 := ⟨rfl, rfl, by decide, by decide, by decide, by decide⟩
  have hk : k.material = .bytes (Bytes.zeros 32) := rfl
  have himage : Paired k k' p 8160 65535 := accepts_image hk rfl rfl rfl
  have he : BoundSender k p source (sender k p source) :=
    ⟨typeName, source, .absent, (), rfl, newEncapsulator_ok hp k _ rfl ()⟩
  have hd : BoundReceiver k' p (receiver k' p : Decapsulator Unit) :=
    ⟨typeName, source, (), newDecapsulator_ok hp k' _ source ()⟩
  have hread : ((source.read (.int (nonceSize 65535))).run ()).result = .ok (Bytes.zeros 65519) := by
    have h := Source.accept_bytes (Bytes.zeros 65519)
    rwa [Bytes.length_zeros] at h
  obtain ⟨hiff, hwhole⟩ := himage.grants he hd
  have hw : (((sender k p source).grant (.int 0) (Datum.ofBound none) SecretKey.generic).run ()).result =
      .ok (.int 0, .int 8160) := hwhole ()
  obtain ⟨key, b, params, hrun, hb, hnonce, h5, hkey, -⟩ := himage.serves he hw hread
  have hi := himage.images hd ((hiff _ _ _ _ () ()).1 hw)
  have hopen : ((receiver k' p : Decapsulator Unit).whole (.bytes b)).run () = ⟨.ok key, [], ()⟩ := by
    refine (hi.accepts b key).2 ⟨hb, ⟨key, .bytes b, .bytes params⟩, ?_, rfl, rfl⟩
    rw [hnonce]
    exact ⟨Unit, source, _, (), he, hread, congrArg Outcome.result hrun⟩
  refine ⟨_, _, key, b, params, he, hd, hrun, by omega, h5, ?_, hopen, fun b' hn hne => ?_⟩
  · simp only [Terms.tail, Option.getD_none] at hkey
    omega
  · exact hi.tampered (congrArg Outcome.result hopen) hn hne

end KeyCapsule.MockKem
