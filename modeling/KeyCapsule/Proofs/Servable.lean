import KeyCapsule.Proofs.Draw
import KeyCapsule.Proofs.Matched

/-! Requests that are checked before they are served. Between bounds that are no fractions exactly those
windows are granted that a secret can be cut at, so no draw and no message is wasted on another one. -/
namespace KeyCapsule
variable {σ α β : Type}

namespace Datum

/-- Fractions compare with the integers, but they mark no place in a sequence. -/
def isReal : Datum → Bool
  | real _ => true
  | _ => false

theorem isReal_of_integer {d : Datum} {n : Int} (h : d.integer? = some n) : d.isReal = false := by
  cases d with
  | real x => cases h
  | _ => rfl

theorem less_integers {d e : Datum} {m n : Int} (hd : d.integer? = some m) (he : e.integer? = some n) :
    d.less e = .ok (decide (m < n)) := by
  cases d <;> cases hd <;> cases e <;> cases he <;> simp [less, bytesLike?, integer?]

private theorem integer_of_less {d e : Datum} {n : Int} {b : Bool} (he : e.integer? = some n)
    (hd : d.isReal = false) (h : d.less e = .ok b) : ∃ m, d.integer? = some m := by
  cases d with
  | bool b => exact ⟨_, rfl⟩
  | int m => exact ⟨m, rfl⟩
  | real x => cases hd
  | _ => cases e <;> cases he <;> simp [less, bytesLike?, integer?, number?] at h

end Datum

structure Spans (size : Int) (first last : Datum) (i j : Int) : Prop where
  first : first.integer? = some i
  last : last.integer? = some j
  nonneg : 0 ≤ i
  lt : i < j
  le : j ≤ size

namespace SecretKey

structure PartOf (i j : Int) (label : Datum) (part whole : SecretKey) : Prop where
  encoded : part.encoded = whole.encoded.cut i j
  algorithm : part.algorithm = label

theorem slice_spans {b : Bytes} {first last label : Datum} {i j : Int} (h : Spans b.length first last i j)
    (hl : label.isNone = false) :
    ∃ k, slice (.bytes b) first last label = .ok k ∧ k.encoded = b.cut i j ∧ k.algorithm = label := by
  have hb : (Datum.bytes b).slice first last = (Datum.bytes b).slice (.int i) (.int j) := by
    simp only [Datum.slice, Datum.bound_integer h.first, Datum.bound_integer h.last, Datum.bound_int]
  have hs : slice (.bytes b) first last label = slice (.bytes b) (.int i) (.int j) label := by
    simp only [slice, hb]
  rw [hs]
  exact slice_bytes h.nonneg h.lt h.le hl

end SecretKey

structure Encapsulated.PartOf (i j : Int) (label : Datum) (part whole : Encapsulated) : Prop where
  key : part.key.PartOf i j label whole.key
  encapsulation : part.encapsulation = whole.encapsulation
  params : part.params = whole.params

namespace Terms

def Slicing (t : Terms σ) : Prop := t.supports = supportsNonempty

variable {t : Terms σ} {size : Datum} {count : Int}

theorem Slicing.quiet (hs : t.Slicing) : t.Quiet := fun start stop label =>
  ⟨start.less stop, congrFun (congrFun (congrFun hs start) stop) label⟩

private theorem grant_slicing (ht : t.secretSize = pure size) (hc : size.integer? = some count) (hs : t.Slicing)
    {start stop label : Datum} (h₁ : start.isReal = false) (h₂ : stop.isReal = false) {s : σ}
    {w : Datum × Datum} :
    ((t.grant start stop label).run s).result = .ok w ↔
      label.isNone = false ∧ w = (start, stop.orSize size) ∧ ∃ i j, Spans count w.1 w.2 i j := by
  have hlast : (stop.orSize size).isReal = false := by
    rw [Datum.orSize]
    split
    · exact Datum.isReal_of_integer hc
    · exact h₂
  have hv : t.grant start stop label = liftM (verdict t.type size (fun start stop _ => start.less stop)
      start stop label) :=
    grant_eq_verdict ht (fun start stop label => by rw [hs]; rfl) start stop label
  rw [hv, Act.run_lift, verdict_eq_ok, checkWindow_eq_ok]
  refine and_congr_right fun _ => ?_
  constructor
  · rintro ⟨⟨-, rfl, h₀, hle, hin⟩, hlt⟩
    obtain ⟨i, hi⟩ := Datum.integer_of_less rfl h₁ h₀
    obtain ⟨j, hj⟩ := Datum.integer_of_less hi hlast hle
    simp only [Datum.less_integers hi (Datum.integer?_int 0), Datum.less_integers hc hj,
      Datum.less_integers hi hj, Except.ok.injEq, decide_eq_false_iff_not, decide_eq_true_eq,
      Int.not_lt] at h₀ hin hlt
    exact ⟨rfl, i, j, hi, hj, h₀, hlt, hin⟩
  · rintro ⟨rfl, i, j, hi, hj, h₀, hlt, hin⟩
    have hn : start.isNone = false := by
      cases start with
      | none => cases hi
      | _ => rfl
    simp only [hn, Datum.less_integers hi (Datum.integer?_int 0), Datum.less_integers hj hi,
      Datum.less_integers hc hj, Datum.less_integers hi hj, Except.ok.injEq, decide_eq_false_iff_not,
      decide_eq_true_eq, Int.not_lt]
    exact ⟨⟨trivial, trivial, h₀, Int.le_of_lt hlt, hin⟩, hlt⟩

structure Servable (t : Terms σ) (size : Datum) (count : Int) : Prop where
  granted : ∀ start stop label s w, start.isReal = false → stop.isReal = false →
    (((t.grant start stop label).run s).result = .ok w ↔
      label.isNone = false ∧ w = (start, stop.orSize size) ∧ ∃ i j, Spans count w.1 w.2 i j)
  sliced : ∀ start stop label s first last, start.isReal = false → stop.isReal = false →
    ((t.grant start stop label).run s).result = .ok (first, last) →
      ∃ i j, Spans count first last i j ∧ ∀ secret : Bytes, (secret.length : Int) = count →
        ∃ k, SecretKey.slice (.bytes secret) first last label = .ok k ∧ k.encoded = secret.cut i j ∧
          (k.encoded.length : Int) = j - i ∧ k.algorithm = label

private theorem servable (ht : t.secretSize = pure size) (hc : size.integer? = some count) (hs : t.Slicing) :
    t.Servable size count where
  granted start stop label s w h₁ h₂ := grant_slicing ht hc hs h₁ h₂
  sliced start stop label s first last h₁ h₂ hw := by
    obtain ⟨hl, -, i, j, h⟩ := (grant_slicing ht hc hs h₁ h₂).1 hw
    refine ⟨i, j, h, fun secret hsecret => ?_⟩
    obtain ⟨k, hk, he, ha⟩ := SecretKey.slice_spans (hsecret ▸ h) hl
    refine ⟨k, hk, he, ?_, ha⟩
    rw [he, Bytes.length_cut h.nonneg (Int.le_of_lt h.lt) (hsecret ▸ h.le)]

/-- What becomes of requests that are checked first. One that is turned down leaves no trace; a granted one
without a fraction ends as a request for the whole secret would, but for the part that its key has. -/
structure Frugal (t : Terms σ) (count : Int) (request : Datum → Datum → Datum → Act σ α)
    (part : Int → Int → Datum → α → α → Prop) : Prop where
  refused : ∀ start stop label s e, ((t.grant start stop label).run s).result = .error e →
    (request start stop label).run s = ⟨.error e, [], s⟩
  granted : ∀ start stop label s first last, start.isReal = false → stop.isReal = false →
    ((t.grant start stop label).run s).result = .ok (first, last) →
      ∃ i j, Spans count first last i j ∧
        ((request start stop label).run s).Mirrors Eq (part i j label)
          ((request (.int 0) .none SecretKey.generic).run s)

/-- A request that goes on from its grant to an algorithm is frugal, if windows of the algorithm are parts
of the whole. -/
private theorem frugal (ht : t.secretSize = pure size) (hc : size.integer? = some count) (hs : t.Slicing)
    {request : Datum → Datum → Datum → Act σ α} (served : Datum → Datum → Datum → Act σ α)
    {part : Int → Int → Datum → α → α → Prop}
    (hr : ∀ start stop label, request start stop label =
      t.grant start stop label >>= fun w => served w.1 w.2 label)
    (hp : ∀ {first last label first' last' : Datum} {i j : Int}, Spans count first last i j →
      Spans count first' last' 0 count → label.isNone = false →
        (served first last label).Mirrors Eq (part i j label) (served first' last' SecretKey.generic)) :
    t.Frugal count request part := by
  constructor
  · intro start stop label s e he
    obtain ⟨x, hx⟩ := grant_quiet ht hs.quiet start stop label
    rw [hx, Act.run_lift] at he
    rw [hr, hx, show x = .error e from he]
    rfl
  · intro start stop label s first last h₁ h₂ hw
    obtain ⟨hl, -, i, j, h⟩ := (grant_slicing ht hc hs h₁ h₂).1 hw
    have hwhole : Spans count (.int 0) size 0 count :=
      ⟨rfl, hc, Int.le_refl 0, Int.lt_of_le_of_lt h.nonneg (Int.lt_of_lt_of_le h.lt h.le), Int.le_refl count⟩
    have hall : ((t.grant (.int 0) .none SecretKey.generic).run s).result = .ok (.int 0, size) :=
      (grant_slicing ht hc hs rfl rfl).2 ⟨rfl, rfl, 0, count, hwhole⟩
    refine ⟨i, j, h, ?_⟩
    rw [hr, hr, grant_eq_pure ht hs.quiet hw, grant_eq_pure ht hs.quiet hall, Act.pure_bind, Act.pure_bind]
    exact hp h hwhole hl s s rfl

end Terms

/-- An algorithm that finds a secret, and what goes with it, before it looks at a window. Its answer is made
of the key that it then cuts. -/
structure Carves (count : Int) (found : Act σ (Bytes × β)) (made : SecretKey → β → α)
    (hook : Datum → Datum → Datum → Act σ α) : Prop where
  cuts : ∀ start stop label, hook start stop label = found >>= fun r =>
    (liftM ((SecretKey.slice (.bytes r.1) start stop label).map fun k => made k r.2) : Act σ α)
  length : ∀ s r, (found.run s).result = .ok r → (r.1.length : Int) = count

private theorem Carves.of_drawn {γ : Type} {count : Int} {drawn : Act σ γ}
    {found : γ → Except Fault (Bytes × β)}
    {made : SecretKey → β → α} {hook : Datum → Datum → Datum → Act σ α}
    (hh : ∀ start stop label, hook start stop label = drawn >>= fun m =>
      (liftM (found m >>= fun r => (SecretKey.slice (.bytes r.1) start stop label).map fun k =>
        made k r.2) : Act σ α))
    (hf : ∀ m r, found m = .ok r → (r.1.length : Int) = count) :
    Carves count (drawn >>= fun m => (liftM (found m) : Act σ (Bytes × β))) made hook where
  cuts start stop label := by
    rw [hh, bind_assoc]
    exact bind_congr fun m => (Act.lift_bind _ _).symm
  length s r h := by
    obtain ⟨m, -, h⟩ := Act.result_bind_eq_ok.1 h
    exact hf m r h

/-- A receiver's algorithm, which gives the key as it is. -/
theorem Carves.of_opened {count : Int} {opened : Except Fault Bytes}
    {hook : Datum → Datum → Datum → Act σ SecretKey}
    (hh : ∀ start stop label, hook start stop label = (liftM opened : Act σ Bytes) >>= fun secret =>
      (liftM (SecretKey.slice (.bytes secret) start stop label) : Act σ SecretKey))
    (ho : ∀ secret, opened = .ok secret → (secret.length : Int) = count) :
    Carves count (liftM (opened.map fun secret => (secret, ())) : Act σ (Bytes × Unit)) (fun k _ => k)
      hook where
  cuts start stop label := by
    rw [hh]
    cases opened with
    | error e => rfl
    | ok secret =>
      change (liftM (SecretKey.slice (.bytes secret) start stop label) : Act σ SecretKey) =
        liftM ((SecretKey.slice (.bytes secret) start stop label).map id)
      cases SecretKey.slice (.bytes secret) start stop label <;> rfl
  length s r h := by
    cases opened with
    | error e => cases h
    | ok secret =>
      cases h
      exact ho secret rfl

/-- Two windows of one secret differ in the parts that they are, and in nothing else. -/
theorem Carves.mirrors {count : Int} {found : Act σ (Bytes × β)} {made : SecretKey → β → α}
    {hook : Datum → Datum → Datum → Act σ α} (h : Carves count found made hook)
    {part : Int → Int → Datum → α → α → Prop}
    (hp : ∀ {i j : Int} {label : Datum} {k whole : SecretKey} (rest : β), k.PartOf i j label whole →
      part i j label (made k rest) (made whole rest))
    {first last label first' last' : Datum} {i j : Int} (hw : Spans count first last i j)
    (hall : Spans count first' last' 0 count) (hl : label.isNone = false) :
    (hook first last label).Mirrors Eq (part i j label) (hook first' last' SecretKey.generic) := by
  rw [h.cuts, h.cuts]
  refine (Act.mirrors_same found).bind fun r r' hr => ?_
  obtain ⟨rfl, s, hs⟩ := hr
  have hlen := h.length s r hs
  subst hlen
  obtain ⟨k, hk, he, ha⟩ := SecretKey.slice_spans hw hl
  obtain ⟨whole, hk', he', -⟩ := SecretKey.slice_spans hall (Datum.isNone_text "Generic")
  rw [Bytes.cut_whole] at he'
  rw [hk, show SecretKey.slice (.bytes r.1) first' last' SecretKey.generic = .ok whole from hk']
  exact Act.mirrors_lift (.ok (hp r.2 ⟨by rw [he, he'], ha⟩))

namespace Terms
variable {t : Terms σ} {size : Datum} {count : Int} {made : SecretKey → β → α}
  {part : Int → Int → Datum → α → α → Prop}

private theorem frugal_serve (ht : t.secretSize = pure size) (hc : size.integer? = some count) (hs : t.Slicing)
    {found : Act σ (Bytes × β)} {hook : Datum → Datum → Datum → Act σ α}
    (hf : Carves count found made hook)
    (hp : ∀ {i j : Int} {label : Datum} {k whole : SecretKey} (rest : β), k.PartOf i j label whole →
      part i j label (made k rest) (made whole rest)) :
    t.Frugal count (t.serve hook) part :=
  frugal ht hc hs hook (fun _ _ _ => rfl) (hf.mirrors hp)

def unwrap (t : Terms σ) (hook : Bytes → Datum → Datum → Datum → Act σ α)
    (message first last label : Datum) : Act σ α := do
  let length ← (message.size : Except Fault Nat)
  let size ← t.encapsulationSize
  if !(Datum.int length).equals size then
    t.reportFailure
    throw .undecapsulated
  t.conceal do
    let b ← message.toBytes
    hook b first last label

theorem receive_unwrap (t : Terms σ) (hook : Bytes → Datum → Datum → Datum → Act σ α) {message : Datum}
    (hm : message.isNone = false) (start stop label : Datum) :
    t.receive hook message start stop label =
      t.grant start stop label >>= fun w => t.unwrap hook message w.1 w.2 label := by
  rw [receive_given t hook hm]
  rfl

private theorem frugal_receive (ht : t.secretSize = pure size) (hc : size.integer? = some count)
    (hs : t.Slicing)
    {found : Bytes → Act σ (Bytes × β)} {hook : Bytes → Datum → Datum → Datum → Act σ α}
    (hf : ∀ b, Carves count (found b) made (hook b))
    (hp : ∀ {i j : Int} {label : Datum} {k whole : SecretKey} (rest : β), k.PartOf i j label whole →
      part i j label (made k rest) (made whole rest))
    {message : Datum} (hm : message.isNone = false) :
    t.Frugal count (t.receive hook message) part := by
  refine frugal ht hc hs (t.unwrap hook message) (t.receive_unwrap hook hm) ?_
  intro first last label first' last' i j h hall hl
  refine (Act.mirrors_same _).bind fun length length' hlength => ?_
  cases hlength.1
  refine (Act.mirrors_same _).bind fun size size' hsize => ?_
  cases hsize.1
  split
  · exact t.failure_mirrors
  · refine t.conceal_mirrors ((Act.mirrors_same _).bind fun b b' hb => ?_)
    cases hb.1
    exact (hf b).mirrors hp h hall hl

end Terms

namespace DhKem
variable {g : KeyAgreement}

private theorem slicing_terms (type : String) (s : Suite) : (terms type s : Terms σ).Slicing := rfl

def sealMaterial (g : KeyAgreement) (receiver : PublicKey) (material : Bytes) :
    Except Fault (Bytes × Bytes) := do
  let ephemeral ← (Suite.ofGroup receiver.group).deriveKey (.bytes material)
  let (message, secret) ← sealWith g (Suite.ofGroup receiver.group) receiver ephemeral
  return (secret, message)

private theorem length_sealMaterial {receiver : PublicKey} {material : Bytes} {r : Bytes × Bytes}
    (h : sealMaterial g receiver material = .ok r) :
    (r.1.length : Int) = (Suite.ofGroup receiver.group).secretSize := by
  obtain ⟨ephemeral, hd, h⟩ := bind_eq_ok.1 h
  obtain ⟨⟨message, secret⟩, hs, h⟩ := bind_eq_ok.1 h
  cases h
  rw [sealWith_eq (Suite.group_deriveKey hd)] at hs
  cases ht : Transcript.sealedBy? g receiver ephemeral with
  | none =>
    rw [ht] at hs
    cases hs
  | some t =>
    rw [ht] at hs
    cases hs
    obtain ⟨_, -, rfl⟩ := Transcript.sealedBy?_eq_some.1 ht
    exact Transcript.size_secret _

private theorem answer_sealMaterial (g : KeyAgreement) (receiver : PublicKey) (material : Bytes)
    (start stop label : Datum) :
    answer g (Suite.ofGroup receiver.group) receiver material start stop label =
      sealMaterial g receiver material >>= fun r =>
        (SecretKey.slice (.bytes r.1) start stop label).map fun key => ⟨key, .bytes r.2, .none⟩ := by
  rw [answer, sealMaterial]
  cases (Suite.ofGroup receiver.group).deriveKey (.bytes material) with
  | error e => rfl
  | ok ephemeral =>
    simp only [ok_bind]
    cases sealWith g (Suite.ofGroup receiver.group) receiver ephemeral with
    | error e => rfl
    | ok r =>
      obtain ⟨message, secret⟩ := r
      simp only [ok_bind]
      change _ = (SecretKey.slice (.bytes secret) start stop label).map _
      cases SecretKey.slice (.bytes secret) start stop label <;> rfl

private theorem encapsulate_carves (g : KeyAgreement) (receiver : PublicKey) (source : Source σ) :
    Carves (Suite.ofGroup receiver.group).secretSize
      (source.read (.int (Suite.ofGroup receiver.group).privateKeySize) >>= fun material =>
        (liftM (sealMaterial g receiver material) : Act σ (Bytes × Bytes)))
      (fun key message => ⟨key, .bytes message, .none⟩)
      (encapsulate g (Suite.ofGroup receiver.group) receiver source) := by
  refine .of_drawn (fun start stop label => ?_) fun material r h => length_sealMaterial h
  rw [encapsulate_eq]
  exact bind_congr fun material => congrArg _ (answer_sealMaterial g receiver material start stop label)

/-- A sender that grants a window from a fraction on draws for it, and then fails. -/
private theorem sender_real (g : KeyAgreement) (receiver : PublicKey) (source : Source σ) {x : Binary64}
    {w stop label : Datum} {s s' : σ} {material : Bytes}
    (hw : (((sender g (Suite.ofGroup receiver.group) receiver source).grant (.real x) stop label).run
      s).result = .ok (.real x, w))
    (hm : (source.read (.int (Suite.ofGroup receiver.group).privateKeySize)).run s =
      ⟨.ok material, [], s'⟩) :
    ∃ e, ((sender g (Suite.ofGroup receiver.group) receiver source).encapsulate (.real x) stop label).run
      s = ⟨.error e, [], s'⟩ := by
  have hs : (sender g (Suite.ofGroup receiver.group) receiver source).encapsulate (.real x) stop label =
      encapsulate g (Suite.ofGroup receiver.group) receiver source (.real x) w label :=
    Terms.serve_granted (fixed_terms _ _).secretSize (quiet_terms _ _) hw _
  rw [hs, encapsulate_eq, Act.run_bind_lift, hm, ok_bind]
  cases ha : answer g (Suite.ofGroup receiver.group) receiver material (.real x) w label with
  | error e => exact ⟨e, rfl⟩
  | ok r =>
    obtain ⟨_, -, ha⟩ := bind_eq_ok.1 ha
    obtain ⟨_, -, ha⟩ := bind_eq_ok.1 ha
    obtain ⟨_, hk, -⟩ := bind_eq_ok.1 ha
    cases hk

private theorem decapsulate_carves (g : KeyAgreement) (key : PrivateKey) (b : Bytes) :
    Carves (Suite.ofGroup key.group).secretSize
      (liftM ((openWith g (Suite.ofGroup key.group) key b).map fun secret => (secret, ())) :
        Act σ (Bytes × Unit))
      (fun key _ => key) (decapsulate g (Suite.ofGroup key.group) key b) := by
  refine .of_opened (fun start stop label => rfl) fun secret h => ?_
  rw [openWith_eq] at h
  cases ho : Transcript.opened? g key b with
  | none =>
    rw [ho] at h
    cases h
  | some t =>
    rw [ho] at h
    cases h
    rw [Transcript.size_secret, Transcript.group_of_opened? ho]

end DhKem

namespace MockKem
variable {k : MockKey} {p : MockParameters} {count : Int}

private theorem slicing_terms (hp : p.allowSlicing.isEmpty = false) (type : String) :
    (terms type p : Terms σ).Slicing := by
  funext start stop label
  change supports p start stop label = Terms.supportsNonempty start stop label
  rw [supports, Terms.supportsNonempty]
  cases start.less stop with
  | error e => rfl
  | ok yes =>
    cases yes with
    | false => rfl
    | true => simp only [hp, Act.lift_ok, Act.pure_bind, Bool.not_true, Bool.not_false, if_true]; rfl

def sealNonce (k : MockKey) (p : MockParameters) (nonce : Bytes) :
    Except Fault (Bytes × Bytes × Bytes) := do
  let (message, secret) ← sealWith k.material p nonce
  let encoded ← p.encode
  return (secret, message, encoded)

/-- The parameters are written once for the secret and once more for the receiver, so the second time
succeeds as well. -/
private theorem answer_sealNonce (k : MockKey) (p : MockParameters) (nonce : Bytes) (start stop label : Datum) :
    answer k p nonce start stop label = sealNonce k p nonce >>= fun r =>
      (SecretKey.slice (.bytes r.1) start stop label).map fun key =>
        ⟨key, .bytes r.2.1, .bytes r.2.2⟩ := by
  rw [answer, sealNonce]
  cases hs : sealWith k.material p nonce with
  | error e => rfl
  | ok r =>
    obtain ⟨message, secret⟩ := r
    obtain ⟨_, hsecret, -⟩ := bind_eq_ok.1 hs
    obtain ⟨encoded, he, -⟩ := bind_eq_ok.1 hsecret
    simp only [ok_bind, he]
    change _ = (SecretKey.slice (.bytes secret) start stop label).map _
    cases SecretKey.slice (.bytes secret) start stop label <;> rfl

private theorem length_sealNonce (hc : p.secretSize.integer? = some count) {nonce : Bytes}
    {r : Bytes × Bytes × Bytes} (h : sealNonce k p nonce = .ok r) : (r.1.length : Int) = count := by
  obtain ⟨⟨message, secret⟩, hs, h⟩ := bind_eq_ok.1 h
  obtain ⟨encoded, -, h⟩ := bind_eq_ok.1 h
  cases h
  obtain ⟨secret, hsecret, hs⟩ := bind_eq_ok.1 hs
  obtain ⟨tag, -, hs⟩ := bind_eq_ok.1 hs
  cases hs
  obtain ⟨n, hn, hl⟩ := size_of_secretOf hsecret
  cases hc.symm.trans hn
  exact hl

private theorem encapsulate_carves (hc : p.secretSize.integer? = some count) (k : MockKey) (source : Source σ) :
    Carves count
      (drawNonce p source >>= fun nonce => (liftM (sealNonce k p nonce) : Act σ (Bytes × Bytes × Bytes)))
      (fun key rest => ⟨key, .bytes rest.1, .bytes rest.2⟩) (encapsulate k p source) := by
  refine .of_drawn (fun start stop label => ?_) fun nonce r h => length_sealNonce hc h
  rw [encapsulate_drawn]
  exact bind_congr fun nonce => congrArg _ (answer_sealNonce k p nonce start stop label)

private theorem decapsulate_carves (hc : p.secretSize.integer? = some count) (k : MockKey) (b : Bytes) :
    Carves count
      (liftM ((openWith k.material p b).map fun secret => (secret, ())) : Act σ (Bytes × Unit))
      (fun key _ => key) (decapsulate k p b) := by
  refine .of_opened (fun start stop label => rfl) fun secret h => ?_
  obtain ⟨n, hn, hl⟩ := size_of_openWith h
  cases hc.symm.trans hn
  exact hl

/-- A receiver that grants a window from a fraction on shows by its fault that the tag is right. -/
private theorem receiver_real {secret message : Int} (hp : InRange p secret message) {m b : Bytes}
    (hk : k.material = .bytes m) (hb : (b.length : Int) = message) (ht : Tagged m b) {x : Binary64}
    {w stop label : Datum} {s : σ}
    (hw : (((receiver k p : Decapsulator σ).grant (.real x) stop label).run s).result = .ok (.real x, w)) :
    (((receiver k p : Decapsulator σ).decapsulate (.bytes b) (.real x) stop label).run s).result =
      .error Fault.typeMismatch := by
  have hr : (receiver k p : Decapsulator σ).decapsulate (.bytes b) (.real x) stop label =
      (receiver k p : Decapsulator σ).conceal (decapsulate k p b (.real x) w label) := by
    refine (Terms.receive_bytes (fixed_terms hp _) _ b _ _ _).trans ?_
    rw [Terms.grant_eq_pure (fixed_terms hp _).secretSize (quiet_terms _ p) hw, Act.pure_bind]
    exact if_pos hb
  obtain ⟨-, secret, ho, -⟩ | ⟨hn, -⟩ := openWith_bytes hp m b
  · rw [hr, Terms.conceal_run, decapsulate, hk, ho, Act.lift_ok, Act.pure_bind]
    rfl
  · exact absurd ht hn

end MockKem

/-- Sides of the suites and of a stand-in with slicing grant a window without fractions only if every secret
can be cut at it. So a sender does not draw for a request that its window spoils, and a receiver turns such
a request down in the same way whatever the message is. -/
theorem granted_windows_served (σ : Type) :
    (∀ {g : KeyAgreement} {receiver : PublicKey} {source : Source σ} {enc : Encapsulator σ},
      DhKem.BoundSender g receiver source enc →
      let count := (Suite.ofGroup receiver.group).secretSize
      enc.Servable (.int count) count ∧ enc.Frugal count enc.encapsulate Encapsulated.PartOf) ∧
    (∀ {g : KeyAgreement} {key : PrivateKey} {dec : Decapsulator σ}, DhKem.BoundReceiver g key dec →
      let count := (Suite.ofGroup key.group).secretSize
      dec.Servable (.int count) count ∧ ∀ message : Datum, message.isNone = false →
        dec.Frugal count (dec.decapsulate message) SecretKey.PartOf) ∧
    ∀ {k : MockKey} {p : MockParameters} {count : Int}, p.secretSize.integer? = some count →
      p.allowSlicing.isEmpty = false →
      (∀ {source : Source σ} {enc : Encapsulator σ}, MockKem.BoundSender k p source enc →
        enc.Servable p.secretSize count ∧ enc.Frugal count enc.encapsulate Encapsulated.PartOf) ∧
      ∀ {dec : Decapsulator σ}, MockKem.BoundReceiver k p dec →
        dec.Servable p.secretSize count ∧ ∀ message : Datum, message.isNone = false →
          dec.Frugal count (dec.decapsulate message) SecretKey.PartOf := by
  refine ⟨?_, ?_, ?_⟩
  · intro g receiver source enc h
    cases h.eq_sender
    have hs := DhKem.slicing_terms (σ := σ) "DHKEMEncapsulator" (Suite.ofGroup receiver.group)
    exact ⟨Terms.servable rfl rfl hs,
      Terms.frugal_serve rfl rfl hs (DhKem.encapsulate_carves g receiver source) fun _ h => ⟨h, rfl, rfl⟩⟩
  · intro g key dec h
    cases h.eq_receiver
    have hs := DhKem.slicing_terms (σ := σ) "DHKEMDecapsulator" (Suite.ofGroup key.group)
    exact ⟨Terms.servable rfl rfl hs, fun message hm =>
      Terms.frugal_receive rfl rfl hs (DhKem.decapsulate_carves g key) (fun _ h => h) hm⟩
  · intro k p count hc hp
    constructor
    · intro source enc h
      obtain ⟨q, hq, rfl⟩ := h.eq_sender
      cases MockKem.eq_mock_of_checkParams hq
      have hs := MockKem.slicing_terms (σ := σ) hp "MockEncapsulator"
      exact ⟨Terms.servable rfl hc hs,
        Terms.frugal_serve rfl hc hs (MockKem.encapsulate_carves hc k source) fun _ h => ⟨h, rfl, rfl⟩⟩
    · intro dec h
      obtain ⟨q, hq, rfl⟩ := h.eq_receiver
      cases MockKem.eq_mock_of_checkParams hq
      have hs := MockKem.slicing_terms (σ := σ) hp "MockDecapsulator"
      exact ⟨Terms.servable rfl hc hs, fun message hm =>
        Terms.frugal_receive rfl hc hs (MockKem.decapsulate_carves hc k) (fun _ h => h) hm⟩

/-- Both sides of the shorter ladder, and of a stand-in with a secret of `True` bytes, asked for all that is
behind the place `True` and for all there is. -/
theorem granted_windows_served_flags :
    let key : PrivateKey := .seed .x25519 ⟨Bytes.zeros 32, by decide⟩
    let receiver : PublicKey := .coordinate .x25519 ⟨Bytes.zeros 32, by decide⟩
    let source : Source Unit := ⟨fun _ => pure (.bytes (Bytes.zeros 32))⟩
    let k : MockKey := ⟨"k", .bytes (Bytes.zeros 32), MockKey.defaultAlgorithm⟩
    let p : MockParameters := ⟨.bool true, .int 48, .bool true⟩
    let enc := DhKem.sender KeyAgreement.standard Suite.x25519 receiver source
    let dec : Decapsulator Unit := DhKem.receiver KeyAgreement.standard Suite.x25519 key
    let mock := MockKem.sender k p source
    let mockDec : Decapsulator Unit := MockKem.receiver k p
    DhKem.BoundSender KeyAgreement.standard receiver source enc ∧
      DhKem.BoundReceiver KeyAgreement.standard key dec ∧ MockKem.BoundSender k p source mock ∧
      MockKem.BoundReceiver k p mockDec ∧ p.secretSize.integer? = some 1 ∧
      p.allowSlicing.isEmpty = false ∧
      ((enc.grant (.bool true) .none "AES").run ()).result = .ok (.bool true, .int 32) ∧
      ((enc.encapsulate (.bool true) .none "AES").run ()).Mirrors Eq (Encapsulated.PartOf 1 32 "AES")
        (enc.whole.run ()) ∧
      ((dec.grant (.bool true) (.bool true) "AES").run ()).result.isOk = false ∧
      ((mock.grant (.bool false) .none "AES").run ()).result = .ok (.bool false, .bool true) ∧
      ((mockDec.decapsulate (.bytes []) (.bool false) .none "AES").run ()).Mirrors Eq
        (SecretKey.PartOf 0 1 "AES") ((mockDec.whole (.bytes [])).run ()) := by
  intro key receiver source k p enc dec mock mockDec
  have he : DhKem.BoundSender KeyAgreement.standard receiver source enc :=
    DhKem.boundSender _ receiver source ()
  have hd : DhKem.BoundReceiver KeyAgreement.standard key dec := DhKem.boundReceiver _ key source ()
  have hm : MockKem.BoundSender k p source mock := ⟨"MockKEM", source, .absent, (), rfl, rfl⟩
  have hr : MockKem.BoundReceiver k p mockDec := ⟨"MockKEM", source, (), rfl⟩
  obtain ⟨hdh, hdec, hmock⟩ := granted_windows_served Unit
  obtain ⟨hs, hf⟩ := hdh he
  refine ⟨he, hd, hm, hr, rfl, rfl, rfl, ?_, rfl, rfl, ?_⟩
  · obtain ⟨i, j, h, ho⟩ := hf.granted (.bool true) .none "AES" () _ _ rfl rfl rfl
    cases h.first
    cases h.last
    exact ho
  · obtain ⟨i, j, h, ho⟩ := (((hmock rfl rfl).2 hr).2 (.bytes []) rfl).granted (.bool false) .none "AES" ()
      _ _ rfl rfl rfl
    cases h.first
    cases h.last
    exact ho

/-- A window from the fraction 0.0 on is granted, but no key is cut at it: the sender has drawn by then, and
the receiver answers a good message otherwise than a bad one. So does an absent end, where the size of the
secret is a fraction. -/
theorem fraction_granted_uncut :
    let first : Datum := .real (.finite 0)
    let receiver : PublicKey := .coordinate .x25519 ⟨List.replicate 32 9, by decide⟩
    let counting : Source Nat := ⟨fun _ draws => ⟨.ok (.bytes (List.replicate 32 7)), [], draws + 1⟩⟩
    let enc := DhKem.sender KeyAgreement.standard Suite.x25519 receiver counting
    let k : MockKey := ⟨"k", .bytes (Bytes.zeros 32), MockKey.defaultAlgorithm⟩
    let p : MockParameters := ⟨.int 32, .int 48, .bool true⟩
    let dec : Decapsulator Nat := MockKem.receiver k p
    let good := Bytes.zeros 32 ++ MockKem.tag (Bytes.zeros 32) (Bytes.zeros 32)
    let size : Datum := .real (.finite 32)
    let odd := MockKem.sender k { p with secretSize := size } counting
    DhKem.BoundSender KeyAgreement.standard receiver counting enc ∧
      ((enc.grant first (.int 16) SecretKey.generic).run 0).result = .ok (first, .int 16) ∧
      (∀ secret : Bytes, SecretKey.slice (.bytes secret) first (.int 16) SecretKey.generic =
        .error Fault.typeMismatch) ∧
      (∃ e, (enc.encapsulate first (.int 16) SecretKey.generic).run 0 = ⟨.error e, [], 1⟩) ∧
      MockKem.BoundReceiver k p dec ∧
      ((dec.decapsulate (.bytes good) first (.int 16) SecretKey.generic).run 0).result =
        .error Fault.typeMismatch ∧
      ((dec.decapsulate (.bytes []) first (.int 16) SecretKey.generic).run 0).result =
        .error .undecapsulated ∧
      MockKem.BoundSender k { p with secretSize := size } counting odd ∧
      ((odd.grant (.int 0) .none SecretKey.generic).run 0).result = .ok (.int 0, size) ∧
      ∀ secret : Bytes, SecretKey.slice (.bytes secret) (.int 0) size SecretKey.generic =
        .error Fault.typeMismatch := by
  intro first receiver counting enc k p dec good size odd
  have hp : MockKem.InRange p 32 48 := ⟨rfl, rfl, by decide, by decide, by decide, by decide⟩
  refine ⟨DhKem.boundSender _ receiver counting 0, rfl, fun _ => rfl, ?_,
    ⟨"MockKEM", counting, 0, rfl⟩, ?_, rfl, ⟨"MockKEM", counting, .absent, 0, rfl, rfl⟩, rfl, fun _ => rfl⟩
  · have hgrant : ((enc.grant first (.int 16) SecretKey.generic).run 0).result = .ok (first, .int 16) := rfl
    have hread : (counting.read (.int (Suite.ofGroup receiver.group).privateKeySize)).run 0 =
      ⟨.ok (List.replicate 32 7), [], 1⟩ := rfl
    exact DhKem.sender_real KeyAgreement.standard receiver counting hgrant hread
  · have hlen : (good.length : Int) = 48 := by simp [good, MockKem.tagSize]
    exact MockKem.receiver_real hp rfl hlen ⟨_, rfl⟩ rfl

end KeyCapsule
