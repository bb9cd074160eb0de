import KeyCapsule.Proofs.Answer
import KeyCapsule.Proofs.Servable

/-! Configurations of the stand-in. Sizes that are integers are checked once and for all, so whatever passes
is served; a size of another kind either has no order with the limits or passes and is never served. -/
namespace KeyCapsule
variable {σ : Type}

namespace Datum

/-- What a comparison of a value with an integer comes to: only numbers have an order with it. -/
inductive Compares (d : Datum) : Except Fault Bool → Prop
  | ordered (h : d.number?.isSome = true) (b : Bool) : Compares d (.ok b)
  | unordered (h : d.number? = Option.none) : Compares d (.error Fault.typeMismatch)

theorem Compares.number {d : Datum} {x : Except Fault Bool} {b : Bool} (h : d.Compares x)
    (hx : x = .ok b) : d.number?.isSome = true := by
  cases h with
  | ordered h _ => exact h
  | unordered => cases hx

variable (d : Datum) (n : Int)

private theorem compares_less : d.Compares (d.less (.int n)) := by
  cases d with
  | real x =>
    simp only [less, bytesLike?, integer?, number?]
    exact .ordered rfl _
  | bool b =>
    rw [less_integers rfl (integer?_int n)]
    exact .ordered rfl _
  | int m =>
    rw [less_int]
    exact .ordered rfl _
  | _ => exact .unordered rfl

private theorem less_compares : d.Compares ((Datum.int n).less d) := by
  cases d with
  | real x =>
    simp only [less, bytesLike?, integer?, number?]
    exact .ordered rfl _
  | bool b =>
    rw [less_integers (integer?_int n) rfl]
    exact .ordered rfl _
  | int m =>
    rw [less_int]
    exact .ordered rfl _
  | _ => exact .unordered rfl

private theorem equals_of_no_number {d : Datum} (h : d.number? = Option.none) (n : Int) :
    d.equals (.int n) = false ∧ (Datum.int n).equals d = false := by
  cases d with
  | bool b => cases h
  | int m => cases h
  | real x => cases h
  | _ => simp [equals, bytesLike?, integer?, number?]

private theorem compares_atMost : d.Compares (d.atMost (.int n)) := by
  rw [atMost]
  split
  case isTrue he =>
    refine .ordered ?_ true
    cases hd : d.number? with
    | some x => rfl
    | none => cases he.symm.trans (equals_of_no_number hd n).1
  case isFalse => exact d.compares_less n

private theorem atMost_compares : d.Compares ((Datum.int n).atMost d) := by
  rw [atMost]
  split
  case isTrue he =>
    refine .ordered ?_ true
    cases hd : d.number? with
    | some x => rfl
    | none => cases he.symm.trans (equals_of_no_number hd n).2
  case isFalse => exact d.less_compares n

private theorem exists_of_unwritable {d : Datum} (hn : d.number?.isSome = true) (hw : d.writable = false) :
    ∃ n : Int, d = .int n ∧ Text.digitBound ≤ n.natAbs := by
  cases d with
  | int n =>
    rw [writable_int, decide_eq_false_iff_not, Nat.not_lt] at hw
    exact ⟨n, rfl, hw⟩
  | bool b => exact absurd hw (by simp [writable])
  | real x => exact absurd hw (by simp [writable])
  | _ => cases hn

private theorem equals_integers {d e : Datum} {m n : Int} (hd : d.integer? = some m)
    (he : e.integer? = some n) :
    d.equals e = (m == n) := by
  cases d <;> cases hd <;> cases e <;> cases he <;> simp [equals, bytesLike?, integer?]

private theorem atMost_integers {d e : Datum} {m n : Int} (hd : d.integer? = some m)
    (he : e.integer? = some n) :
    d.atMost e = .ok (decide (m ≤ n)) := by
  rw [atMost, equals_integers hd he, less_integers hd he]
  by_cases h : m = n
  · simp [h]
  · have hle : m < n ↔ m ≤ n := by omega
    simp [h, hle]

end Datum

namespace MockParameters

/-- The ways in which parameters are turned down. Only a size without an order is refused as a value of the
wrong type, and only an integer of too many digits cannot be named in the refusal. -/
inductive Refusal (p : MockParameters) (e : Fault) : Prop
  | outside (h : e.kind = .invalidParameter)
  | unordered (h : e.kind = .type) (hd : p.secretSize.number? = none ∨ p.encapsulationSize.number? = none)
  | unwritable (h : e = .unwritable) (n : Int) (hd : p.secretSize = .int n ∨ p.encapsulationSize = .int n)
    (hn : Text.digitBound ≤ n.natAbs)

inductive Checked (p : MockParameters) : Except Fault MockParameters → Prop
  | kept : Checked p (.ok p)
  | refused {e : Fault} (h : p.Refusal e) : Checked p (.error e)

/-- One check of a size, behind which others follow. -/
theorem Checked.step {p : MockParameters} {d : Datum} {x : Except Fault Bool} (hx : d.Compares x)
    (hd : d = p.secretSize ∨ d = p.encapsulationSize) {cause : ParameterFault} {α : Type}
    {f : α → Except Fault MockParameters} {rest : Except Fault MockParameters} {bad : Bool → Bool}
    (hw : (Fault.parameter cause).writable = d.writable) (h : Checked p rest) :
    Checked p (x >>= fun b => if bad b then throw (Fault.parameter cause).worded >>= f else rest) := by
  cases hx with
  | ordered hn b =>
    rw [ok_bind]
    split
    · cases hd' : d.writable with
      | true =>
        rw [Fault.worded_of_writable (hw.trans hd')]
        exact .refused (.outside rfl)
      | false =>
        obtain ⟨n, rfl, hbig⟩ := Datum.exists_of_unwritable hn hd'
        refine .refused (.unwritable (if_neg ?_) n (hd.imp Eq.symm Eq.symm) hbig)
        simp [hw, hd']
    · exact h
  | unordered hn =>
    refine .refused (.unordered rfl ?_)
    rcases hd with rfl | rfl
    · exact .inl hn
    · exact .inr hn

end MockParameters

namespace MockKem
open MockParameters

private theorem checkParams_checked (p : MockParameters) : p.Checked (checkParams (.mock p)) := by
  refine .step (Datum.atMost_compares _ 1) (.inl rfl) rfl ?_
  refine .step (Datum.compares_atMost _ _) (.inl rfl) rfl ?_
  refine .step (Datum.compares_less _ _) (.inr rfl) rfl ?_
  exact .step (Datum.less_compares _ _) (.inr rfl) rfl .kept

private theorem numbers_of_checkParams {p q : MockParameters} (h : checkParams (.mock p) = .ok q) :
    p.secretSize.number?.isSome = true ∧ p.encapsulationSize.number?.isSome = true := by
  simp only [checkParams, bind_eq_ok, guard_eq_ok] at h
  obtain ⟨_, h₁, -, _, -, -, _, h₂, -⟩ := h
  exact ⟨(Datum.atMost_compares _ _).number h₁, (Datum.compares_less _ _).number h₂⟩

/-- Sizes that stand for integers in their ranges. The size of a message is no truth value then, as these are
too small. -/
structure Sized (p : MockParameters) (secret message : Int) : Prop where
  secretSize : p.secretSize.integer? = some secret
  encapsulationSize : p.encapsulationSize = .int message
  secret_pos : 1 ≤ secret
  secret_le : secret ≤ maxSecretSize
  message_ge : minNonceSize + tagSize ≤ message
  message_le : message ≤ 0xffff

theorem sized_of_checkParams {p q : MockParameters} {secret message : Int}
    (hs : p.secretSize.integer? = some secret) (hm : p.encapsulationSize.integer? = some message)
    (h : checkParams (.mock p) = .ok q) : Sized p secret message := by
  simp only [checkParams, Datum.atMost_integers (Datum.integer?_int _) hs,
    Datum.atMost_integers hs (Datum.integer?_int _), Datum.less_integers hm (Datum.integer?_int _),
    Datum.less_integers (Datum.integer?_int _) hm, ok_bind, guard_eq_ok, Bool.not_eq_true',
    decide_eq_false_iff_not, decide_eq_true_eq, Decidable.not_not] at h
  obtain ⟨h₁, h₂, h₃, h₄, -⟩ := h
  refine ⟨hs, ?_, h₁, h₂, by omega, by omega⟩
  cases hd : p.encapsulationSize with
  | int n =>
    rw [hd] at hm
    cases hm
    rfl
  | bool b =>
    rw [hd] at hm
    simp only [minNonceSize, tagSize] at h₃
    cases b <;> cases hm <;> omega
  | _ =>
    rw [hd] at hm
    cases hm

def plainly (p : MockParameters) (secret : Int) : MockParameters := { p with secretSize := .int secret }

variable {p : MockParameters} {secret message : Int}

private theorem Sized.inRange (hp : Sized p secret message) : InRange (plainly p secret) secret message :=
  ⟨rfl, hp.encapsulationSize, hp.secret_pos, hp.secret_le, hp.message_ge, hp.message_le⟩

/-- Nothing that is computed from parameters tells a truth value from its number. -/
private theorem encode_plainly (h : p.secretSize.integer? = some secret) :
    (plainly p secret).encode = p.encode := by
  have hf : MockParameters.field p.secretSize = MockParameters.field (.int secret) := by
    simp only [MockParameters.field, h, Datum.integer?_int]
  rw [MockParameters.encode, MockParameters.encode, hf]
  rfl

private theorem secretOf_plainly (h : p.secretSize.integer? = some secret) (material nonce : Datum) :
    secretOf material (plainly p secret) nonce = secretOf material p nonce := by
  have hw : Hkdf.Request.wordLength p.secretSize = Hkdf.Request.wordLength (.int secret) := by
    simp only [Hkdf.Request.wordLength, h, Datum.integer?_int]
  simp only [secretOf, encode_plainly h, derive, Hkdf.Request.derive, Hkdf.Request.terms, hw]
  rfl

private theorem openWith_plainly (h : p.secretSize.integer? = some secret) (material : Datum) (b : Bytes) :
    openWith material (plainly p secret) b = openWith material p b := by
  simp only [openWith, secretOf_plainly h]

private theorem answer_plainly (h : p.secretSize.integer? = some secret) (k : MockKey) (nonce : Bytes)
    (start stop label : Datum) :
    answer k (plainly p secret) nonce start stop label = answer k p nonce start stop label := by
  simp only [answer, sealWith, secretOf_plainly h, encode_plainly h]

private theorem Sized.answer_whole (hp : Sized p secret message) {k : MockKey} {m : Bytes}
    (hk : k.material = .bytes m) (nonce : Bytes) :
    ∃ (key : SecretKey) (encoded : Bytes),
      answer k p nonce (.int 0) p.secretSize SecretKey.generic =
        .ok ⟨key, .bytes (nonce ++ tag m nonce), .bytes encoded⟩ ∧
      (key.encoded.length : Int) = secret ∧
      openWith (.bytes m) p (nonce ++ tag m nonce) = .ok key.encoded ∧
      SecretKey.slice (.bytes key.encoded) (.int 0) p.secretSize SecretKey.generic = .ok key := by
  have hm : k.material.joinable = .ok m := by
    rw [hk]
    rfl
  obtain ⟨b, encoded, hlen, hopen, -, hans⟩ := answer_bytes hp.inRange hm nonce
  have hpos := hp.secret_pos
  have hw : Spans b.length (.int 0) p.secretSize 0 secret :=
    ⟨rfl, hp.secretSize, Int.le_refl 0, by omega, by omega⟩
  obtain ⟨key, hkey, hcut, -⟩ := SecretKey.slice_spans hw (Datum.isNone_text "Generic")
  rw [← hlen, Bytes.cut_whole] at hcut
  subst hcut
  refine ⟨key, encoded, ?_, hlen, ?_, hkey⟩
  · have hkey : SecretKey.slice (.bytes key.encoded) (.int 0) p.secretSize SecretKey.generic = .ok key := hkey
    rw [← answer_plainly hp.secretSize, hans, hkey]
    rfl
  · rw [← openWith_plainly hp.secretSize, ← hk]
    exact hopen

private theorem Sized.verdict_whole (hp : Sized p secret message) (type : String) :
    Terms.verdict type p.secretSize (supported p) (.int 0) .none SecretKey.generic =
      .ok (.int 0, p.secretSize) := by
  have hpos := hp.secret_pos
  have hz : (Datum.int 0).integer? = some 0 := rfl
  refine Terms.verdict_eq_ok.2 ⟨rfl, checkWindow_eq_ok.2 ⟨rfl, rfl, Datum.less_integers hz hz, ?_, ?_⟩, ?_⟩
  · rw [Datum.less_integers hp.secretSize hz, decide_eq_false (by omega)]
  · rw [Datum.less_integers hp.secretSize hp.secretSize, decide_eq_false (by omega)]
  · have hg : SecretKey.generic.equals SecretKey.generic = true := rfl
    have hlt : (Datum.int 0).less p.secretSize = .ok true := by
      rw [Datum.less_integers hz hp.secretSize, decide_eq_true (by omega)]
    simp only [supported, hlt, ok_bind, Datum.equals_integers hz hz,
      Datum.equals_integers hp.secretSize hp.secretSize, beq_self_eq_true, hg, Bool.and_self, Bool.or_true]
    rfl

def Drawn (source : Source σ) (message : Int) (s : σ) (nonce : Bytes) : Prop :=
  ∃ d, ((source.draw (.int (nonceSize message))).run s).result = .ok d ∧ d.Carries nonce ∧
    (nonce.length : Int) = nonceSize message

variable {source : Source σ} {k k' : MockKey} {m : Bytes}

private theorem Sized.sender_whole (hp : Sized p secret message) {s : σ} {nonce : Bytes}
    (hd : Drawn source message s nonce) :
    ((sender k p source).whole.run s).result = answer k p nonce (.int 0) p.secretSize SecretKey.generic := by
  obtain ⟨d, hd, hc, hl⟩ := hd
  have hg : (plan k p message).grant (.int 0) .none SecretKey.generic = .ok (.int 0, p.secretSize) :=
    hp.verdict_whole _
  rw [Encapsulator.whole, sender_serves k hp.encapsulationSize, Plan.run_granted source s hg]
  have hr : ((source.read (.int (nonceSize message))).run s).result = .ok nonce := by
    rw [Source.run_read, hd]
    exact Source.accept_eq_ok.2 ⟨hc, hl⟩
  change ((source.read (.int (nonceSize message))).run s).result >>= _ = _
  rw [hr, ok_bind]
  rfl

private theorem Sized.receiver_whole (hp : Sized p secret message) {b : Bytes}
    (hb : (b.length : Int) = message) :
    ((receiver k p : Decapsulator σ).whole (.bytes b)) =
      (terms "MockDecapsulator" p).conceal
        (decapsulate k p b (.int 0) p.secretSize SecretKey.generic) := by
  have hr : (receiver k p : Decapsulator σ).whole (.bytes b) = (terms "MockDecapsulator" p).receive
      (decapsulate k p) (.bytes b) (.int 0) .none SecretKey.generic := rfl
  have hm : (terms "MockDecapsulator" p : Terms σ).encapsulationSize = pure (.int message) :=
    congrArg pure hp.encapsulationSize
  rw [hr, Terms.receive_unwrap _ _ rfl, grant_eq, hp.verdict_whole, Act.lift_ok, Act.pure_bind,
    Terms.unwrap, hm]
  simp only [Datum.size_bytes, Datum.toBytes_bytes, Act.lift_ok, Act.pure_bind, Datum.equals_int, hb,
    beq_self_eq_true, Bool.not_true, Bool.false_eq_true, if_false]

/-- Sender and receiver of one configuration come to the same key for every nonce. -/
theorem Sized.recovered (hp : Sized p secret message) (hk : k.material = .bytes m)
    (hk' : k'.material = .bytes m) {s : σ} {nonce : Bytes} (hd : Drawn source message s nonce) :
    ∃ r, ((sender k p source).whole.run s).result = .ok r ∧ (r.key.encoded.length : Int) = secret ∧
      ∀ t : σ, ((receiver k' p).whole r.encapsulation).run t = ⟨.ok r.key, [], t⟩ := by
  obtain ⟨key, encoded, ha, hlen, hopen, hslice⟩ := hp.answer_whole hk nonce
  have hl : ((nonce ++ tag m nonce).length : Int) = message := by
    obtain ⟨-, -, -, hl⟩ := hd
    rw [List.length_append, length_tag, Int.natCast_add, hl, nonceSize]
    omega
  refine ⟨_, (hp.sender_whole hd).trans ha, hlen, fun t => ?_⟩
  have hx : decapsulate k' p (nonce ++ tag m nonce) (.int 0) p.secretSize SecretKey.generic =
      (pure key : Act σ SecretKey) := by
    rw [decapsulate, hk', hopen, Act.lift_ok, Act.pure_bind, hslice]
    rfl
  rw [hp.receiver_whole hl, hx, Terms.conceal_run]
  rfl

private theorem integers_of_encode {encoded : Bytes} (h : p.encode = .ok encoded) :
    (∃ n, p.secretSize.integer? = some n) ∧ ∃ n, p.encapsulationSize.integer? = some n := by
  have hf : ∀ {d : Datum} {b : Bytes}, MockParameters.field d = .ok b → ∃ n, d.integer? = some n := by
    intro d b hb
    rw [MockParameters.field] at hb
    split at hb
    · next n hn => exact ⟨n, hn⟩
    · cases hb
  obtain ⟨_, hs, h⟩ := bind_eq_ok.1 h
  obtain ⟨_, hm, -⟩ := bind_eq_ok.1 h
  exact ⟨hf hs, hf hm⟩

private theorem encodes_of_secretOf {material nonce : Datum} {b : Bytes}
    (h : secretOf material p nonce = .ok b) :
    ∃ encoded, p.encode = .ok encoded := by
  obtain ⟨encoded, he, -⟩ := bind_eq_ok.1 h
  exact ⟨encoded, he⟩

/-- A sender that ever gives a key has written its parameters down. -/
private theorem encodes_of_sender {start stop label : Datum} {s : σ} {r : Encapsulated}
    (h : (((sender k p source).encapsulate start stop label).run s).result = .ok r) :
    ∃ encoded, p.encode = .ok encoded := by
  obtain ⟨⟨first, last⟩, -, h⟩ := Act.result_bind_eq_ok.1 h
  dsimp only at h
  rw [encapsulate_drawn] at h
  obtain ⟨nonce, -, h⟩ := Act.result_bind_eq_ok.1 h
  obtain ⟨_, hseal, -⟩ := bind_eq_ok.1 h
  obtain ⟨_, hsecret, -⟩ := bind_eq_ok.1 hseal
  exact encodes_of_secretOf hsecret

private theorem encodes_of_receiver {message start stop label : Datum} {s : σ} {key : SecretKey}
    (h : (((receiver k p : Decapsulator σ).decapsulate message start stop label).run s).result = .ok key) :
    ∃ encoded, p.encode = .ok encoded := by
  obtain ⟨b, first, last, s', -, -, h⟩ := Terms.receive_ok h
  obtain ⟨_, hopen, -⟩ := Act.result_bind_eq_ok.1 h
  obtain ⟨_, hsecret, -⟩ := bind_eq_ok.1 hopen
  exact encodes_of_secretOf hsecret

private theorem newEncapsulator_result (k : MockKey) (p : MockParameters) (name : Datum) (entropy : Source σ)
    {choice : SourceChoice σ} (hc : choice.resolve entropy = .ok source) (s : σ) :
    (((named name entropy).newEncapsulator (.mock .sender k) (.mock p) choice).run s).result =
      checkParams (.mock p) >>= fun q => .ok (sender k q source) := by
  rw [(newEncapsulator_yields name entropy (.mock .sender k) (.mock p) choice).result s, hc]
  rfl

private theorem newDecapsulator_result (k : MockKey) (p : MockParameters) (name : Datum) (entropy : Source σ)
    (s : σ) :
    (((named name entropy).newDecapsulator (.mock .receiver k) (.mock p)).run s).result =
      checkParams (.mock p) >>= fun q => .ok (receiver k q) :=
  (newDecapsulator_yields name entropy (.mock .receiver k) (.mock p)).result s

/-- What becomes of a configuration: the attempts to make a sender, which draws from a source, and a
receiver. -/
structure Settles (p : MockParameters) (source : Source σ) (sender : Except Fault (Encapsulator σ))
    (receiver : Except Fault (Decapsulator σ)) : Prop where
  /-- Both attempts are turned down alike, or neither is. -/
  alike : (∃ e, p.Refusal e ∧ sender = .error e ∧ receiver = .error e) ∨
    ∃ enc dec, sender = .ok enc ∧ receiver = .ok dec
  numbers : ∀ enc, sender = .ok enc →
    p.secretSize.number?.isSome = true ∧ p.encapsulationSize.number?.isSome = true
  /-- Sizes that are integers are served with every nonce, whatever permits slicing. -/
  served : ∀ enc dec secret message, sender = .ok enc → receiver = .ok dec →
    p.secretSize.integer? = some secret → p.encapsulationSize.integer? = some message →
    ∀ s nonce, Drawn source message s nonce →
      ∃ r, (enc.whole.run s).result = .ok r ∧ (r.key.encoded.length : Int) = secret ∧
        ∀ t, (dec.whole r.encapsulation).run t = ⟨.ok r.key, [], t⟩
  /-- A fraction for a size is never served at all. -/
  barren : ∀ enc dec, sender = .ok enc → receiver = .ok dec →
    p.secretSize.isReal = true ∨ p.encapsulationSize.isReal = true →
    ∀ start stop label s, (∀ r, ((enc.encapsulate start stop label).run s).result ≠ .ok r) ∧
      ∀ message key, ((dec.decapsulate message start stop label).run s).result ≠ .ok key

/-- Parameters of any values are settled once by either factory of the stand-in, and those with integers for
sizes completely. -/
theorem configurations_settled {k k' : MockKey} {m : Bytes} (hk : k.material = .bytes m)
    (hk' : k'.material = .bytes m) (p : MockParameters) (name : Datum) (entropy : Source σ)
    {choice : SourceChoice σ} {source : Source σ} (hc : choice.resolve entropy = .ok source) (s t : σ) :
    Settles p source
      (((named name entropy).newEncapsulator (.mock .sender k) (.mock p) choice).run s).result
      (((named name entropy).newDecapsulator (.mock .receiver k') (.mock p)).run t).result := by
  rw [newEncapsulator_result k p name entropy hc, newDecapsulator_result]
  cases hx : checkParams (.mock p) with
  | error e =>
    refine ⟨.inl ⟨e, ?_, rfl, rfl⟩, ?_, ?_, ?_⟩
    · have h := checkParams_checked p
      rw [hx] at h
      cases h with
      | refused h => exact h
    · exact fun enc h => nomatch h
    · exact fun enc dec secret message h => nomatch h
    · exact fun enc dec h => nomatch h
  | ok q =>
    cases eq_mock_of_checkParams hx
    refine ⟨.inr ⟨_, _, rfl, rfl⟩, fun enc _ => numbers_of_checkParams hx, ?_, ?_⟩
    · rintro _ _ secret message ⟨⟩ ⟨⟩ hs hm s nonce hd
      exact (sized_of_checkParams hs hm hx).recovered hk hk' hd
    · rintro _ _ ⟨⟩ ⟨⟩ hr start stop label s
      -- without a written form there is no secret to cut a key from
      have hn : ∀ encoded, p.encode ≠ .ok encoded := by
        intro encoded he
        obtain ⟨⟨n, hs⟩, n', hm⟩ := integers_of_encode he
        rcases hr with hr | hr
        · cases hr.symm.trans (Datum.isReal_of_integer hs)
        · cases hr.symm.trans (Datum.isReal_of_integer hm)
      refine ⟨fun r h => ?_, fun message key h => ?_⟩
      · obtain ⟨encoded, he⟩ := encodes_of_sender h
        exact hn encoded he
      · obtain ⟨encoded, he⟩ := encodes_of_receiver h
        exact hn encoded he

/-- The smallest configuration there is, with a secret of `True` bytes and messages that are a shortest nonce
and its tag. The nonce comes as a buffer. -/
theorem configurations_settled_smallest :
    let k : MockKey := ⟨"k", .bytes (Bytes.zeros 32), MockKey.defaultAlgorithm⟩
    let p : MockParameters := ⟨.bool true, .int 32, .none⟩
    let source : Source Unit := ⟨fun _ => pure (.buffer (Bytes.zeros 16))⟩
    SourceChoice.absent.resolve source = .ok source ∧ Drawn source 32 () (Bytes.zeros 16) ∧
      ∃ enc dec, (((named "MockKEM" source).newEncapsulator (.mock .sender k) (.mock p) .absent).run
          ()).result = .ok enc ∧
        (((named "MockKEM" source).newDecapsulator (.mock .receiver k) (.mock p)).run ()).result = .ok dec ∧
        ∃ r, (enc.whole.run ()).result = .ok r ∧ r.key.encoded.length = (1 : Int) ∧
          (dec.whole r.encapsulation).run () = ⟨.ok r.key, [], ()⟩ := by
  intro k p source
  have hd : Drawn source 32 () (Bytes.zeros 16) := ⟨_, rfl, .buffer _, rfl⟩
  have hc : SourceChoice.absent.resolve source = .ok source := rfl
  have hk : k.material = .bytes (Bytes.zeros 32) := rfl
  have h := configurations_settled hk hk p "MockKEM" source hc () ()
  refine ⟨hc, hd, sender k p source, receiver k p, rfl, rfl, ?_⟩
  obtain ⟨r, hr, hl, ho⟩ := h.served _ _ 1 32 rfl rfl rfl rfl () _ hd
  exact ⟨r, hr, hl, ho ()⟩

/-- An absent size comes out of the factory as a value of the wrong type, and a fraction passes it only to fail
when the parameters are written down. -/
theorem loose_sizes_unchecked :
    let k : MockKey := ⟨"k", .bytes (Bytes.zeros 32), MockKey.defaultAlgorithm⟩
    let absent : MockParameters := ⟨.none, .int 64, .bool false⟩
    let fraction : MockParameters := ⟨.real (.finite 32), .int 64, .bool false⟩
    let source : Source Unit := ⟨fun _ => pure (.bytes (Bytes.zeros 48))⟩
    (∃ e, (((provider source).newEncapsulator (.mock .sender k) (.mock absent) .absent).run ()).result =
        .error e ∧ e.isA .invalidParameter = false ∧ e.kind = .type) ∧
      ∃ enc e, (((provider source).newEncapsulator (.mock .sender k) (.mock fraction) .absent).run
          ()).result = .ok enc ∧
        (enc.whole.run ()).result = .error e ∧ e.kind = .packing := by
  intro k absent fraction source
  exact ⟨⟨Fault.typeMismatch, rfl, rfl, rfl⟩, sender k fraction source, MockParameters.field.packing, rfl,
    rfl, rfl⟩

end MockKem

end KeyCapsule
