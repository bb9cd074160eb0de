import KeyCapsule.Proofs.Action
import KeyCapsule.Provider

/-! Admission of requests. A side grants a window under its terms before its algorithm sees it, and
conceals why a message could not be opened; the side itself is what its provider's rules bound. -/
namespace KeyCapsule
variable {σ α : Type}

def Datum.isNone : Datum → Bool
  | none => true
  | _ => false

@[simp] theorem Datum.isNone_text (s : String) : (text s).isNone = false := rfl

theorem Datum.ne_none_of_isNone {d : Datum} (h : d.isNone = false) : d ≠ .none := by
  rintro rfl
  cases h

theorem Datum.isNone_of_bytesLike {x : Datum} {b : Bytes} (h : x.bytesLike? = some b) :
    x.isNone = false := by
  cases x with
  | none => cases h
  | _ => rfl

private theorem Datum.size_of_bytesLike {x : Datum} {b : Bytes} (h : x.bytesLike? = some b) :
    x.size = .ok b.length := by
  cases x with
  | bytes c => cases h; rfl
  | buffer c => cases h; rfl
  | _ => cases h

def Datum.orSize (stop size : Datum) : Datum := if stop.isNone then size else stop

/-- A window passes its check if it starts somewhere and three comparisons find nothing wrong. -/
theorem checkWindow_eq_ok {start stop size : Datum} {w : Datum × Datum} :
    checkWindow start stop size = .ok w ↔ start.isNone = false ∧ w = (start, stop.orSize size) ∧
      start.less (.int 0) = .ok false ∧ w.2.less start = .ok false ∧ size.less w.2 = .ok false := by
  have hc : checkWindow start stop size = (do
      if start.isNone then throw (.missing .start)
      let last := stop.orSize size
      if (← start.less (.int 0)) then throw (Fault.range start last size).worded
      if (← last.less start) then throw (Fault.range start last size).worded
      if (← size.less last) then throw (Fault.range start last size).worded
      return (start, last)) := by
    cases start <;> cases stop <;> rfl
  rw [hc]
  cases start.isNone with
  | true => exact ⟨fun h => (nomatch h), fun h => (nomatch h.1)⟩
  | false =>
    simp only [Bool.false_eq_true, if_false, bind_eq_ok, guard_eq_ok, Bool.not_eq_true, true_and]
    constructor
    · rintro ⟨_, h₁, rfl, _, h₂, rfl, _, h₃, rfl, h⟩
      cases h
      exact ⟨rfl, h₁, h₂, h₃⟩
    · rintro ⟨rfl, h₁, h₂, h₃⟩
      exact ⟨_, h₁, rfl, _, h₂, rfl, _, h₃, rfl, rfl⟩

namespace Terms

structure Fixed (t : Terms σ) (secret message : Int) : Prop where
  secretSize : t.secretSize = pure (.int secret)
  encapsulationSize : t.encapsulationSize = pure (.int message)

def Settled (t : Terms σ) : Prop :=
  ∃ secret message : Datum, t.secretSize = pure secret ∧ t.encapsulationSize = pure message

theorem Fixed.settled {t : Terms σ} {secret message : Int} (ht : t.Fixed secret message) : t.Settled :=
  ⟨_, _, ht.secretSize, ht.encapsulationSize⟩

/-- Under a label the window is checked first and support is asked next. -/
theorem grant_labelled {t : Terms σ} {size : Datum} (ht : t.secretSize = pure size) {label : Datum}
    (hl : label.isNone = false) (start stop : Datum) :
    t.grant start stop label = (do
      let (start, stop) ← (checkWindow start stop size : Except Fault (Datum × Datum))
      let supported ← t.supports start stop label
      if !supported then throw (Fault.unsupported t.type start stop label).worded
      return (start, stop)) := by
  cases label with
  | none => cases hl
  | _ => simp only [grant, ht, Act.pure_bind]

/-- Without an end a window reaches to the end of the secret. -/
theorem grant_absent {t : Terms σ} {size : Int} (ht : t.secretSize = pure (.int size))
    (start label : Datum) : t.grant start .none label = t.grant start (.int size) label := by
  cases hl : label.isNone with
  | true =>
    cases label with
    | none => rfl
    | _ => cases hl
  | false => rw [grant_labelled ht hl, grant_labelled ht hl]; rfl

theorem receive_absent {t : Terms σ} {size : Int} (ht : t.secretSize = pure (.int size))
    (hook : Bytes → Datum → Datum → Datum → Act σ α) (message start label : Datum) :
    t.receive hook message start .none label = t.receive hook message start (.int size) label := by
  cases message <;> simp only [receive, grant_absent ht]

/-- Support that is told from the request alone. -/
def Quiet (t : Terms σ) : Prop :=
  ∀ start stop label, ∃ x : Except Fault Bool, t.supports start stop label = liftM x

theorem grant_quiet {t : Terms σ} {size : Datum} (ht : t.secretSize = pure size) (hq : t.Quiet)
    (start stop label : Datum) :
    ∃ x : Except Fault (Datum × Datum), t.grant start stop label = liftM x := by
  cases hl : label.isNone with
  | true =>
    cases label with
    | none => exact ⟨.error (.missing .algorithm), rfl⟩
    | _ => cases hl
  | false =>
    rw [grant_labelled ht hl]
    cases checkWindow start stop size with
    | error e => exact ⟨.error e, rfl⟩
    | ok w =>
      obtain ⟨x, hx⟩ := hq w.1 w.2 label
      simp only [Act.lift_ok, Act.pure_bind, hx]
      cases x with
      | error e => exact ⟨.error e, rfl⟩
      | ok yes =>
        cases yes with
        | true => exact ⟨.ok w, rfl⟩
        | false => exact ⟨.error _, rfl⟩

/-- A request that such a side grants leaves no trace of its checks. -/
theorem grant_eq_pure {t : Terms σ} {size : Datum} (ht : t.secretSize = pure size) (hq : t.Quiet)
    {start stop label : Datum} {s : σ} {w : Datum × Datum}
    (hw : ((t.grant start stop label).run s).result = .ok w) : t.grant start stop label = pure w := by
  obtain ⟨x, hx⟩ := grant_quiet ht hq start stop label
  rw [hx, Act.run_lift] at hw
  rw [hx, show x = .ok w from hw, Act.lift_ok]

theorem serve_granted {t : Terms σ} {size : Datum} (ht : t.secretSize = pure size) (hq : t.Quiet)
    {start stop label : Datum} {s : σ} {first last : Datum}
    (hw : ((t.grant start stop label).run s).result = .ok (first, last))
    (hook : Datum → Datum → Datum → Act σ α) : t.serve hook start stop label = hook first last label := by
  rw [serve, grant_eq_pure ht hq hw, Act.pure_bind]

/-- A window of integers that is granted lies inside the secret and is supported. -/
theorem grant_int {t : Terms σ} {size : Int} (ht : t.secretSize = pure (.int size)) {start stop : Int}
    {label : Datum} {s : σ} {w : Datum × Datum} :
    ((t.grant (.int start) (.int stop) label).run s).result = .ok w ↔
      label.isNone = false ∧ (0 ≤ start ∧ start ≤ stop ∧ stop ≤ size) ∧
        ((t.supports (.int start) (.int stop) label).run s).result = .ok true ∧
        w = (.int start, .int stop) := by
  cases hl : label.isNone with
  | true =>
    cases label with
    | none => simp [grant]
    | _ => cases hl
  | false =>
    rw [grant_labelled ht hl, checkWindow_int]
    by_cases hw : 0 ≤ start ∧ start ≤ stop ∧ stop ≤ size
    · rw [if_pos hw, Act.lift_ok, Act.pure_bind, Act.result_bind_eq_ok]
      constructor
      · rintro ⟨yes, hs, h⟩
        cases yes with
        | true => exact ⟨rfl, hw, hs, (Except.ok.inj h).symm⟩
        | false => cases h
      · rintro ⟨-, -, hs, rfl⟩
        exact ⟨true, hs, rfl⟩
    · simp [hw, Act.lift_error]

private theorem grant_outside {t : Terms σ} {size : Int} (ht : t.secretSize = pure (.int size))
    {start stop : Int}
    (ho : ¬ (0 ≤ start ∧ start ≤ stop ∧ stop ≤ size)) {label : Datum} (hl : label.isNone = false) :
    t.grant (.int start) (.int stop) label =
      throw (Fault.range (.int start) (.int stop) (.int size)).worded := by
  rw [grant_labelled ht hl, checkWindow_int, if_neg ho]
  rfl

theorem serve_outside {t : Terms σ} {size : Int} (ht : t.secretSize = pure (.int size)) {start stop : Int}
    (ho : ¬ (0 ≤ start ∧ start ≤ stop ∧ stop ≤ size)) {label : Datum} (hl : label.isNone = false)
    (hook : Datum → Datum → Datum → Act σ α) :
    t.serve hook (.int start) (.int stop) label =
      throw (Fault.range (.int start) (.int stop) (.int size)).worded := by
  rw [serve, grant_outside ht ho hl]
  rfl

def failure (t : Terms σ) : Record := .debug logger (t.type ++ ": decapsulation failed")

/-- What leaves a decapsulation of what its algorithm came to, and the records that go with it. -/
def disclosed (t : Terms σ) : Except Fault α → Except Fault α × List Record
  | .ok a => (.ok a, [])
  | .error e =>
    if e.isA .decapsulate then (.error e, [t.failure])
    else if e.isA .value then (.error .undecapsulated, [t.failure])
    else (.error e, [])

theorem conceal_run (t : Terms σ) (x : Act σ α) (s : σ) :
    (t.conceal x).run s =
      ⟨(t.disclosed (x.run s).result).1, (x.run s).log ++ (t.disclosed (x.run s).result).2,
        (x.run s).state⟩ := by
  rw [conceal, Act.run_handle]
  cases (x.run s).result with
  | ok a => simp [disclosed]
  | error e =>
    by_cases hd : e.isA .decapsulate = true
    · simp only [hd, disclosed, if_true]
      rfl
    · by_cases hv : e.isA .value = true
      · simp only [hd, hv, disclosed, if_true]
        rfl
      · simp only [hd, hv, disclosed]
        rfl

private theorem conceal_ok {t : Terms σ} {x : Act σ α} {s : σ} {a : α} :
    ((t.conceal x).run s).result = .ok a ↔ (x.run s).result = .ok a := by
  rw [conceal_run]
  cases (x.run s).result with
  | ok a => simp [disclosed]
  | error e =>
    simp only [disclosed]
    split
    · simp
    · split <;> simp

/-- A request for a message that is there is checked, and then the length of the message. -/
theorem receive_given (t : Terms σ) (hook : Bytes → Datum → Datum → Datum → Act σ α) {message : Datum}
    (hm : message.isNone = false) (start stop label : Datum) :
    t.receive hook message start stop label = (do
      let (start, stop) ← t.grant start stop label
      let length ← (message.size : Except Fault Nat)
      let size ← t.encapsulationSize
      if !(Datum.int length).equals size then
        t.reportFailure
        throw .undecapsulated
      t.conceal do
        let b ← message.toBytes
        hook b start stop label) := by
  cases message with
  | none => cases hm
  | _ => rfl

theorem receive_outside {t : Terms σ} {size : Int} (ht : t.secretSize = pure (.int size)) {start stop : Int}
    (ho : ¬ (0 ≤ start ∧ start ≤ stop ∧ stop ≤ size)) {label message : Datum} (hl : label.isNone = false)
    (hm : message.isNone = false) (hook : Bytes → Datum → Datum → Datum → Act σ α) :
    t.receive hook message (.int start) (.int stop) label =
      throw (Fault.range (.int start) (.int stop) (.int size)).worded := by
  rw [receive_given t hook hm, grant_outside ht ho hl]
  rfl

/-- A message of another length ends a granted request. -/
theorem receive_misfit {t : Terms σ} {size length : Int} (ht : t.Fixed size length) {message : Datum}
    {b : Bytes} (hm : message.bytesLike? = some b) (hb : (b.length : Int) ≠ length)
    (hook : Bytes → Datum → Datum → Datum → Act σ α) (start stop label : Datum) :
    t.receive hook message start stop label = (do
      let _ ← t.grant start stop label
      t.reportFailure
      throw .undecapsulated) := by
  rw [receive_given t hook (Datum.isNone_of_bytesLike hm)]
  simp only [Datum.size_of_bytesLike hm, ht.encapsulationSize, Act.lift_ok, Act.pure_bind, Datum.equals_int]
  congr 1
  funext window
  simp [hb]

/-- A message that is served has passed as bytes to the algorithm, with the window that was granted. -/
theorem receive_ok {t : Terms σ} {hook : Bytes → Datum → Datum → Datum → Act σ α}
    {message start stop label : Datum} {s : σ} {a : α}
    (h : ((t.receive hook message start stop label).run s).result = .ok a) :
    ∃ b first last s', message.toBytes = .ok b ∧
      ((t.grant start stop label).run s).result = .ok (first, last) ∧
      ((hook b first last label).run s').result = .ok a := by
  have hm : message.isNone = false := by
    cases message with
    | none => cases h
    | _ => rfl
  rw [receive_given t hook hm] at h
  obtain ⟨⟨first, last⟩, hw, h⟩ := Act.result_bind_eq_ok.1 h
  obtain ⟨length, -, h⟩ := Act.result_bind_eq_ok.1 h
  obtain ⟨size, -, h⟩ := Act.result_bind_eq_ok.1 h
  cases he : (Datum.int length).equals size with
  | false =>
    simp only [he, Bool.not_false, if_true] at h
    obtain ⟨_, -, h⟩ := Act.result_bind_eq_ok.1 h
    cases h
  | true =>
    simp only [he, Bool.not_true] at h
    obtain ⟨b, hb, h⟩ := Act.result_bind_eq_ok.1 (conceal_ok.1 h)
    exact ⟨b, first, last, _, hb, hw, h⟩

/-- A granted request for a byte string first compares its length, and then conceals what the algorithm
comes to. -/
theorem receive_bytes {t : Terms σ} {size length : Int} (ht : t.Fixed size length)
    (hook : Bytes → Datum → Datum → Datum → Act σ α) (b : Bytes) (start stop label : Datum) :
    t.receive hook (.bytes b) start stop label = (do
      let (start, stop) ← t.grant start stop label
      if (b.length : Int) = length then t.conceal (hook b start stop label)
      else do
        t.reportFailure
        throw .undecapsulated) := by
  simp only [receive, Datum.size_bytes, Datum.toBytes_bytes, ht.encapsulationSize, Act.lift_ok,
    Act.pure_bind, Act.throw_bind, Datum.equals_int]
  congr 1
  funext window
  by_cases hb : (b.length : Int) = length <;> simp [hb]

end Terms

namespace Provider

variable {type : String} {name : Datum} {entropy : Source σ}
  {bindSender : KeyValue → ParamsValue → Source σ → Act σ (Encapsulator σ)}
  {bindReceiver : KeyValue → ParamsValue → Act σ (Decapsulator σ)} {key : KeyValue}
  {params : ParamsValue} {choice : SourceChoice σ} {s : σ}

private theorem announce_yields {t : Terms σ} (ht : t.Settled) (title : Datum) (noun : String) :
    (announce title noun t).Yields (.ok ()) := by
  obtain ⟨secret, message, hs, hm⟩ := ht
  rw [announce, hs, Act.pure_bind, hm, Act.pure_bind]
  exact Act.yields_report _

def presence (side : Side) (key : KeyValue) : Except Fault Unit :=
  if key.isAbsent then .error (.key (.absent side)) else .ok ()

/-- What a new sender comes to is told by the key, the parameters and the choice of a source alone, as
far as the provider's rule does so. -/
theorem newEncapsulator_yields (bindReceiver : KeyValue → ParamsValue → Act σ (Decapsulator σ))
    {made : Source σ → Except Fault (Encapsulator σ)}
    (hb : ∀ source, (bindSender key params source).Yields (made source))
    (ht : ∀ source enc, made source = .ok enc → enc.toTerms.Settled) :
    ((ofRules type name entropy bindSender bindReceiver).newEncapsulator key params choice).Yields
      (presence .sender key >>= fun _ => choice.resolve entropy >>= made) := by
  have ha : admitSender entropy key choice =
      liftM (presence .sender key >>= fun _ => choice.resolve entropy) := by
    rw [admitSender, presence]
    cases key.isAbsent <;> rfl
  have hx : (presence .sender key >>= fun _ => choice.resolve entropy >>= made) =
      (presence .sender key >>= fun _ => choice.resolve entropy) >>= fun source =>
        made source >>= fun enc => (.ok () : Except Fault Unit) >>= fun _ => .ok enc := by
    cases presence .sender key with
    | error e => rfl
    | ok _ =>
      cases choice.resolve entropy with
      | error e => rfl
      | ok source =>
        simp only [ok_bind]
        cases made source with
        | error e => rfl
        | ok enc => rfl
  rw [hx]
  change (admitSender entropy key choice >>= _).Yields _
  rw [ha]
  exact (Act.yields_lift _).bind fun source _ => (hb source).bind fun enc henc =>
    (announce_yields (ht source enc henc) _ _).bind fun _ _ => Act.yields_pure enc

theorem newDecapsulator_yields (entropy : Source σ)
    (bindSender : KeyValue → ParamsValue → Source σ → Act σ (Encapsulator σ))
    {made : Except Fault (Decapsulator σ)} (hb : (bindReceiver key params).Yields made)
    (ht : ∀ dec, made = .ok dec → dec.toTerms.Settled) :
    ((ofRules type name entropy bindSender bindReceiver).newDecapsulator key params).Yields
      (presence .receiver key >>= fun _ => made) := by
  have ha : (admitReceiver key : Act σ Unit) = liftM (presence .receiver key) := by
    rw [admitReceiver, presence]
    cases key.isAbsent <;> rfl
  have hx : (presence .receiver key >>= fun _ => made) = presence .receiver key >>= fun _ =>
      made >>= fun dec => (.ok () : Except Fault Unit) >>= fun _ => .ok dec := by
    cases made <;> rfl
  rw [hx]
  change (admitReceiver key >>= _).Yields _
  rw [ha]
  exact (Act.yields_lift _).bind fun _ _ => hb.bind fun dec hdec =>
    (announce_yields (ht dec hdec) _ _).bind fun _ _ => Act.yields_pure dec

/-- A new sender is what the provider's rule bound to the source that the caller chose. -/
theorem newEncapsulator_ok {enc : Encapsulator σ}
    (bindReceiver : KeyValue → ParamsValue → Act σ (Decapsulator σ))
    (h : (((ofRules type name entropy bindSender bindReceiver).newEncapsulator key params choice).run
      s).result = .ok enc) :
    ∃ source s', choice.resolve entropy = .ok source ∧
      ((bindSender key params source).run s').result = .ok enc := by
  obtain ⟨source, hs, h⟩ := Act.result_bind_eq_ok.1 h
  obtain ⟨enc', hb, h⟩ := Act.result_bind_eq_ok.1 h
  obtain ⟨_, -, h⟩ := Act.result_bind_eq_ok.1 h
  cases h
  refine ⟨source, _, ?_, hb⟩
  cases hk : key.isAbsent with
  | true =>
    rw [admitSender, hk] at hs
    cases hs
  | false =>
    rw [admitSender, hk] at hs
    exact hs

theorem newDecapsulator_ok {dec : Decapsulator σ} (entropy : Source σ)
    (bindSender : KeyValue → ParamsValue → Source σ → Act σ (Encapsulator σ))
    (h : (((ofRules type name entropy bindSender bindReceiver).newDecapsulator key params).run
      s).result = .ok dec) :
    ∃ s', ((bindReceiver key params).run s').result = .ok dec := by
  obtain ⟨_, -, h⟩ := Act.result_bind_eq_ok.1 h
  obtain ⟨dec', hb, h⟩ := Act.result_bind_eq_ok.1 h
  obtain ⟨_, -, h⟩ := Act.result_bind_eq_ok.1 h
  cases h
  exact ⟨_, hb⟩

end Provider

end KeyCapsule
