import Mathlib.Algebra.GroupWithZero.Nat
import KeyCapsule.Proofs.Order

/-! Sessions of many sides on one stream of randomness. Each granted encapsulation takes the next bytes of
the stream and nothing else touches it, so every answer is one that the side would give alone. -/
namespace KeyCapsule.Session

inductive Step
  /-- A new sender draws from the shared stream, unless a value is named as its source that is none. -/
  | newSender (o : Order) (unfit : Option Datum)
  | newReceiver (o : Order)
  | encapsulate (side : Nat) (start stop label : Datum)
  | decapsulate (side : Nat) (message start stop label : Datum)

def Step.Integral : Step → Prop
  | newSender o _ | newReceiver o => o.Integral
  | _ => True

inductive Answer
  | made (r : Except Fault Unit)
  | sealed (r : Except Fault Encapsulated)
  | opened (r : Except Fault SecretKey)
  /-- There is no such side. -/
  | absent

structure State where
  tape : Tape
  senders : List (Order × Encapsulator Tape)
  receivers : List (Order × Decapsulator Tape)

def State.initial : State := ⟨⟨0, []⟩, [], []⟩

variable (g : KeyAgreement) (data : Bytes)

def choice (unfit : Option Datum) : SourceChoice Tape :=
  match unfit with
  | none => .supplied (shared data)
  | some d => .other d

/-- One step of a session. A side that is not made leaves the others as they were. -/
def State.step (st : State) : Step → State × Answer
  | .newSender o unfit =>
    let out := (o.newSender g (shared data) (choice data unfit)).run st.tape
    match out.result with
    | .ok enc => ({ st with tape := out.state, senders := st.senders ++ [(o, enc)] }, .made (.ok ()))
    | .error e => ({ st with tape := out.state }, .made (.error e))
  | .newReceiver o =>
    let out := (o.newReceiver g (shared data)).run st.tape
    match out.result with
    | .ok dec => ({ st with tape := out.state, receivers := st.receivers ++ [(o, dec)] }, .made (.ok ()))
    | .error e => ({ st with tape := out.state }, .made (.error e))
  | .encapsulate side start stop label =>
    match st.senders[side]? with
    | some (_, enc) =>
      let out := (enc.encapsulate start stop label).run st.tape
      ({ st with tape := out.state }, .sealed out.result)
    | none => (st, .absent)
  | .decapsulate side message start stop label =>
    match st.receivers[side]? with
    | some (_, dec) =>
      let out := (dec.decapsulate message start stop label).run st.tape
      ({ st with tape := out.state }, .opened out.result)
    | none => (st, .absent)

structure Event where
  before : State
  step : Step
  answer : Answer
  after : State

def State.event (st : State) (x : Step) : Event :=
  ⟨st, x, (st.step g data x).2, (st.step g data x).1⟩

def run (st : State) : List Step → List Event
  | [] => []
  | x :: rest => st.event g data x :: run (st.event g data x).after rest

/-- How many bytes an event takes from the stream: those that a sender wants for a granted request. -/
def Event.demand (e : Event) : Nat :=
  match e.step with
  | .encapsulate side start stop label =>
    match e.before.senders[side]? with
    | some (o, enc) =>
      match ((enc.grant start stop label).run e.before.tape).result with
      | .ok _ => o.wanted
      | .error _ => 0
    | none => 0
  | _ => 0

def Event.segment (e : Event) : Bytes := (data.drop e.before.tape.place).take e.demand

/-- What an event did to the stream, and what it answered. -/
structure Event.Accounted (e : Event) : Prop where
  /-- Making sides leaves the stream alone. -/
  makes : ∀ o unfit, e.step = .newSender o unfit ∨ e.step = .newReceiver o →
    e.after.tape = e.before.tape
  /-- So does opening messages, and the answer is the receiver's own. -/
  opens : ∀ side message start stop label, e.step = .decapsulate side message start stop label →
    e.after.tape = e.before.tape ∧
      ∀ o dec, e.before.receivers[side]? = some (o, dec) →
        e.answer = .opened (o.openedAlone g message start stop label)
  /-- So does a request that a sender turns down. -/
  refuses : ∀ side start stop label o enc fault, e.step = .encapsulate side start stop label →
    e.before.senders[side]? = some (o, enc) →
    ((enc.grant start stop label).run e.before.tape).result = .error fault →
    e.after.tape = e.before.tape ∧ e.answer = .sealed (.error fault)
  /-- A granted request is one draw of the bytes that its sender wants, whatever comes of it. -/
  draws : ∀ side start stop label o enc w, e.step = .encapsulate side start stop label →
    e.before.senders[side]? = some (o, enc) →
    ((enc.grant start stop label).run e.before.tape).result = .ok w →
    e.after.tape = ⟨e.before.tape.place + o.wanted, e.before.tape.asked ++ [.int o.wanted]⟩ ∧
      (e.segment data).length = o.wanted
  /-- Either way the answer is the sender's own on the bytes that the event took. -/
  seals : ∀ side start stop label o enc, e.step = .encapsulate side start stop label →
    e.before.senders[side]? = some (o, enc) →
    e.answer = .sealed (o.sealedAlone g (e.segment data) start stop label)

variable {g data}

/-- Every side of a state is one that its order calls for. -/
structure State.Sound (g : KeyAgreement) (data : Bytes) (st : State) : Prop where
  senders : ∀ o enc, (o, enc) ∈ st.senders →
    ∃ plan sender, Order.Sends o g plan sender ∧ enc = sender Tape (shared data)
  receivers : ∀ o dec, (o, dec) ∈ st.receivers →
    ∃ receiver, Order.Receives o g receiver ∧ dec = receiver Tape

private theorem State.sound_initial : State.initial.Sound g data :=
  ⟨fun _ _ h => (nomatch h), fun _ _ h => (nomatch h)⟩

private theorem State.Sound.of_tape {st : State} (h : st.Sound g data) (t : Tape) :
    State.Sound g data { st with tape := t } := ⟨h.senders, h.receivers⟩

structure Event.Kept (g : KeyAgreement) (data : Bytes) (e : Event) : Prop where
  sound : e.after.Sound g data
  accounted : e.Accounted g data
  place : e.after.tape.place = e.before.tape.place + e.demand

private theorem Event.Kept.of_made {e : Event} {o : Order}
    (he : (∃ unfit, e.step = .newSender o unfit) ∨ e.step = .newReceiver o) (hs : e.after.Sound g data)
    (ht : e.after.tape = e.before.tape) : e.Kept g data where
  sound := hs
  place := by
    have hd : e.demand = 0 := by rcases he with ⟨_, he⟩ | he <;> simp only [demand, he]
    rw [ht, hd, Nat.add_zero]
  accounted := by
    constructor
    case makes => exact fun _ _ _ => ht
    all_goals
      intros
      rcases he with ⟨_, he⟩ | he <;> simp_all only [reduceCtorEq]

/-- So does one that opens a message. -/
theorem Event.Kept.of_opened {e : Event} {side : Nat} {message start stop label : Datum}
    (he : e.step = .decapsulate side message start stop label) (hs : e.after.Sound g data)
    (ht : e.after.tape = e.before.tape)
    (ha : ∀ o dec, e.before.receivers[side]? = some (o, dec) →
      e.answer = .opened (o.openedAlone g message start stop label)) : e.Kept g data where
  sound := hs
  place := by
    have hd : e.demand = 0 := by simp only [demand, he]
    rw [ht, hd, Nat.add_zero]
  accounted := by
    constructor
    case opens =>
      intro side' message' start' stop' label' h
      cases he.symm.trans h
      exact ⟨ht, ha⟩
    all_goals
      intros
      simp_all only [reduceCtorEq, or_self]

private theorem Event.Kept.of_absent {e : Event} {side : Nat} {start stop label : Datum}
    (he : e.step = .encapsulate side start stop label) (hside : e.before.senders[side]? = none)
    (hs : e.after.Sound g data) (ht : e.after.tape = e.before.tape) : e.Kept g data where
  sound := hs
  place := by
    have hd : e.demand = 0 := by simp only [demand, he, hside]
    rw [ht, hd, Nat.add_zero]
  accounted := by
    constructor
    all_goals
      intros
      simp_all

private theorem Event.Kept.of_refused {e : Event} {side : Nat} {start stop label : Datum} {o : Order}
    {enc : Encapsulator Tape} {fault : Fault} (he : e.step = .encapsulate side start stop label)
    (hside : e.before.senders[side]? = some (o, enc))
    (hg : ((enc.grant start stop label).run e.before.tape).result = .error fault)
    (hs : e.after.Sound g data) (ht : e.after.tape = e.before.tape)
    (ha : e.answer = .sealed (.error fault))
    (halone : ∀ b, o.sealedAlone g b start stop label = .error fault) : e.Kept g data where
  sound := hs
  place := by
    have hd : e.demand = 0 := by simp only [demand, he, hside, hg]
    rw [ht, hd, Nat.add_zero]
  accounted := by
    constructor
    case refuses =>
      intro side' start' stop' label' o' enc' fault' h hside' hg'
      cases he.symm.trans h
      cases hside.symm.trans hside'
      cases hg.symm.trans hg'
      exact ⟨ht, ha⟩
    case seals =>
      intro side' start' stop' label' o' enc' h hside'
      cases he.symm.trans h
      cases hside.symm.trans hside'
      rw [ha, halone]
    all_goals
      intros
      simp_all

private theorem Event.Kept.of_granted {e : Event} {side : Nat} {start stop label : Datum} {o : Order}
    {enc : Encapsulator Tape} {w : Datum × Datum} (he : e.step = .encapsulate side start stop label)
    (hside : e.before.senders[side]? = some (o, enc))
    (hg : ((enc.grant start stop label).run e.before.tape).result = .ok w)
    (hs : e.after.Sound g data)
    (ht : e.after.tape = ⟨e.before.tape.place + o.wanted, e.before.tape.asked ++ [.int o.wanted]⟩)
    (hlong : e.before.tape.place + o.wanted ≤ data.length)
    (ha : e.answer = .sealed
      (o.sealedAlone g ((data.drop e.before.tape.place).take o.wanted) start stop label)) :
    e.Kept g data := by
  have hd : e.demand = o.wanted := by simp only [demand, he, hside, hg]
  refine ⟨hs, ?_, by rw [ht, hd]⟩
  constructor
  case draws =>
    intro side' start' stop' label' o' enc' w' h hside' hg'
    cases he.symm.trans h
    cases hside.symm.trans hside'
    refine ⟨ht, ?_⟩
    rw [segment, hd]
    exact Bytes.length_next hlong
  case seals =>
    intro side' start' stop' label' o' enc' h hside'
    cases he.symm.trans h
    cases hside.symm.trans hside'
    rw [ha, segment, hd]
  all_goals
    intros
    simp_all

private theorem step_newSender {st : State} (hst : st.Sound g data) {o : Order} (hi : o.Integral)
    (unfit : Option Datum) :
    (st.step g data (.newSender o unfit)).1.tape = st.tape ∧
      (st.step g data (.newSender o unfit)).1.Sound g data := by
  rcases o.sends_or_fails g hi with ⟨plan, sender, hs⟩ | hf
  · obtain ⟨log, hb⟩ := hs.bound Tape (shared data) (choice data unfit)
    have hb := hb st.tape
    cases unfit with
    | some d =>
      simp only [choice, SourceChoice.resolve, error_bind] at hb
      simp only [State.step, choice, hb]
      exact ⟨trivial, hst⟩
    | none =>
      simp only [choice, SourceChoice.resolve, ok_bind] at hb
      simp only [State.step, choice, hb]
      refine ⟨trivial, ?_, hst.receivers⟩
      intro o' enc hmem
      rcases List.mem_append.1 hmem with hmem | hmem
      · exact hst.senders o' enc hmem
      · cases List.mem_singleton.1 hmem
        exact ⟨plan, sender, hs, rfl⟩
  · obtain ⟨e, log, hb⟩ := hf Tape (shared data) (choice data unfit)
    simp only [State.step, hb st.tape]
    exact ⟨trivial, hst⟩

private theorem step_newReceiver {st : State} (hst : st.Sound g data) (o : Order) :
    (st.step g data (.newReceiver o)).1.tape = st.tape ∧
      (st.step g data (.newReceiver o)).1.Sound g data := by
  rcases o.receives_or_fails g with ⟨receiver, hr⟩ | hf
  · obtain ⟨log, hb⟩ := hr.bound Tape (shared data)
    simp only [State.step, hb st.tape]
    refine ⟨trivial, hst.senders, ?_⟩
    intro o' dec hmem
    rcases List.mem_append.1 hmem with hmem | hmem
    · exact hst.receivers o' dec hmem
    · cases List.mem_singleton.1 hmem
      exact ⟨receiver, hr, rfl⟩
  · obtain ⟨e, log, hb⟩ := hf Tape (shared data)
    simp only [State.step, hb st.tape]
    exact ⟨trivial, hst⟩

private theorem kept_newSender {st : State} (hst : st.Sound g data) {o : Order} (hi : o.Integral)
    (unfit : Option Datum) : (st.event g data (.newSender o unfit)).Kept g data := by
  obtain ⟨ht, hs⟩ := step_newSender hst hi unfit
  exact .of_made (.inl ⟨unfit, rfl⟩) hs ht

private theorem kept_newReceiver {st : State} (hst : st.Sound g data) (o : Order) :
    (st.event g data (.newReceiver o)).Kept g data := by
  obtain ⟨ht, hs⟩ := step_newReceiver hst o
  exact .of_made (.inr rfl) hs ht

private theorem step_decapsulate {st : State} (hst : st.Sound g data) (side : Nat)
    (message start stop label : Datum) :
    ∃ answer, st.step g data (.decapsulate side message start stop label) = (st, answer) ∧
      ∀ o dec, st.receivers[side]? = some (o, dec) →
        answer = .opened (o.openedAlone g message start stop label) := by
  cases hside : st.receivers[side]? with
  | none => exact ⟨.absent, by simp only [State.step, hside], fun _ _ h => nomatch h⟩
  | some p =>
    obtain ⟨o, dec⟩ := p
    obtain ⟨receiver, hr, rfl⟩ := hst.receivers o dec (List.mem_of_getElem? hside)
    obtain ⟨log, hrun⟩ := hr.yields message start stop label Tape
    refine ⟨.opened (o.openedAlone g message start stop label), ?_, ?_⟩
    · simp only [State.step, hside, hrun st.tape]
    · intro o' dec' h
      cases h
      rfl

private theorem kept_decapsulate {st : State} (hst : st.Sound g data) (side : Nat)
    (message start stop label : Datum) :
    (st.event g data (.decapsulate side message start stop label)).Kept g data := by
  obtain ⟨answer, hstep, ha⟩ := step_decapsulate hst side message start stop label
  rw [State.event, hstep]
  exact .of_opened rfl hst rfl ha

/-- What a sender does in a session is what it does alone with the bytes that come next. -/
private theorem step_encapsulate {st : State} {o : Order} {plan : Plan}
    {sender : ∀ σ : Type, Source σ → Encapsulator σ} (hs : o.Sends g plan sender) {side : Nat}
    (hside : st.senders[side]? = some (o, sender Tape (shared data))) {start stop label : Datum} :
    (∀ e, plan.grant start stop label = .error e →
      st.step g data (.encapsulate side start stop label) = (st, .sealed (.error e))) ∧
    (∀ w, plan.grant start stop label = .ok w → st.tape.place + o.wanted ≤ data.length →
      st.step g data (.encapsulate side start stop label) =
        ({ st with tape := ⟨st.tape.place + o.wanted, st.tape.asked ++ [.int o.wanted]⟩ },
          .sealed (o.sealedAlone g ((data.drop st.tape.place).take o.wanted) start stop label))) := by
  constructor
  · intro e hg
    simp only [State.step, hside, hs.serves, Plan.run_refused _ _ hg]
  · intro w hg hlong
    simp only [State.step, hside, hs.serves, Plan.run_granted _ _ hg, hs.wanted,
      shared_read hs.isWord hlong, hs.sealedAlone_granted hg (Bytes.length_next hlong), ok_bind]

private theorem kept_encapsulate {st : State} (hst : st.Sound g data) (side : Nat) (start stop label : Datum)
    (hlong : st.tape.place + (st.event g data (.encapsulate side start stop label)).demand ≤ data.length) :
    (st.event g data (.encapsulate side start stop label)).Kept g data := by
  cases hside : st.senders[side]? with
  | none =>
    have hstep : st.step g data (.encapsulate side start stop label) = (st, .absent) := by
      simp only [State.step, hside]
    rw [State.event, hstep]
    exact .of_absent rfl hside hst rfl
  | some p =>
    obtain ⟨o, enc⟩ := p
    obtain ⟨plan, sender, hs, rfl⟩ := hst.senders o enc (List.mem_of_getElem? hside)
    obtain ⟨hrefused, hgranted⟩ := step_encapsulate hs hside
    have hgrant : (((sender Tape (shared data)).grant start stop label).run st.tape).result =
        plan.grant start stop label := by rw [hs.grants, Act.run_lift]
    cases hg : plan.grant start stop label with
    | error fault =>
      rw [hg] at hgrant
      rw [State.event, hrefused _ hg]
      exact .of_refused rfl hside hgrant hst rfl rfl (hs.sealedAlone_refused hg)
    | ok w =>
      rw [hg] at hgrant
      have hd : (st.event g data (.encapsulate side start stop label)).demand = o.wanted := by
        simp only [State.event, Event.demand, hside, hgrant]
      rw [hd] at hlong
      rw [State.event, hgranted _ hg hlong]
      exact .of_granted rfl hside hgrant (hst.of_tape _) rfl hlong rfl

theorem kept {st : State} (hst : st.Sound g data) {x : Step} (hi : x.Integral)
    (hlong : st.tape.place + (st.event g data x).demand ≤ data.length) : (st.event g data x).Kept g data := by
  cases x with
  | newSender o unfit => exact kept_newSender hst hi unfit
  | newReceiver o => exact kept_newReceiver hst o
  | encapsulate side start stop label => exact kept_encapsulate hst side start stop label hlong
  | decapsulate side message start stop label => exact kept_decapsulate hst side message start stop label

/-- How the events of a session that begins at a place share the stream. -/
structure Consecutive (g : KeyAgreement) (data : Bytes) (first : Nat) (events : List Event) : Prop where
  accounted : ∀ e ∈ events, e.Accounted g data
  /-- The bytes of an event begin where those of the earlier ones end. -/
  place : ∀ earlier e later, events = earlier ++ e :: later →
    e.before.tape.place = first + (earlier.map Event.demand).sum
  /-- Together they are the stream as far as it was read. -/
  segments : (events.map (Event.segment data)).flatten =
    (data.drop first).take (events.map Event.demand).sum

private theorem consecutive_run {st : State} (hst : st.Sound g data) {steps : List Step}
    (hi : ∀ x ∈ steps, x.Integral)
    (hlong : st.tape.place + ((run g data st steps).map Event.demand).sum ≤ data.length) :
    Consecutive g data st.tape.place (run g data st steps) := by
  induction steps generalizing st with
  | nil =>
    refine ⟨fun e he => ?_, fun earlier _ _ h => ?_, ?_⟩
    · cases he
    · cases earlier <;> cases h
    · rw [run, List.map_nil, List.map_nil, List.sum_nil, List.take_zero, List.flatten_nil]
  | cons x rest ih =>
    rw [run, List.map_cons, List.sum_cons] at hlong
    obtain ⟨hsound, haccounted, hplace⟩ := kept hst (hi x List.mem_cons_self) (by omega)
    have hrest := ih hsound (fun y hy => hi y (List.mem_cons_of_mem x hy)) (by
      rw [hplace]
      exact Nat.add_assoc _ _ _ ▸ hlong)
    constructor
    case accounted =>
      intro e he
      rcases List.mem_cons.1 he with rfl | he
      · exact haccounted
      · exact hrest.accounted e he
    case place =>
      intro earlier e later h
      cases earlier with
      | nil =>
        cases h
        rfl
      | cons e' earlier =>
        rw [run, List.cons_append] at h
        obtain ⟨rfl, hlater⟩ := List.cons.inj h
        rw [hrest.place earlier e later hlater, hplace, List.map_cons, List.sum_cons]
        exact Nat.add_assoc _ _ _
    case segments =>
      rw [run, List.map_cons, List.map_cons, List.sum_cons, List.flatten_cons, hrest.segments, hplace,
        List.take_add, List.drop_drop]
      rfl

/-- In a session on a stream that lasts, only granted encapsulations touch the stream, each takes the next
bytes by one draw, and every side answers as it would alone. -/
theorem sessions_accounted (g : KeyAgreement) (data : Bytes) (steps : List Step)
    (hi : ∀ x ∈ steps, x.Integral)
    (hlong : ((run g data .initial steps).map Event.demand).sum ≤ data.length) :
    Consecutive g data 0 (run g data .initial steps) :=
  consecutive_run State.sound_initial hi (by rwa [State.initial, Nat.zero_add])

/-- A session of a stand-in and of a sender for a key of low order: the third step takes a nonce, the
fourth is turned down, the fifth takes the material of an ephemeral key before its agreement is refused,
and the sixth goes on behind it. -/
theorem sessions_accounted_mixed :
    let k : MockKey := ⟨"k", .bytes (Bytes.zeros 32), MockKey.defaultAlgorithm⟩
    let mock : Order := ⟨.mockKem, .mock .sender k, .mock ⟨.int 32, .int 32, .bool false⟩⟩
    let low : PublicKey := .coordinate .x25519 ⟨Bytes.zeros 32, by decide⟩
    let steps : List Step :=
      [.newSender mock none, .newSender ⟨.dhKem, .publicKey low, .absent⟩ none,
        .encapsulate 0 (.int 0) .none SecretKey.generic, .encapsulate 0 (.int 0) (.int 0) SecretKey.generic,
        .encapsulate 1 (.int 0) .none SecretKey.generic, .encapsulate 0 (.int 0) .none SecretKey.generic]
    let data := Bytes.zeros 64
    let events := run KeyAgreement.standard data .initial steps
    (∀ x ∈ steps, x.Integral) ∧ events.map Event.demand = [0, 0, 16, 0, 32, 16] ∧
      (events.map Event.demand).sum ≤ data.length ∧
      Consecutive KeyAgreement.standard data 0 events := by
  intro k mock low steps data events
  have hmock : mock.Integral := by
    rintro p ⟨⟩
    exact ⟨⟨32, rfl⟩, 32, rfl⟩
  have hlow : Order.Integral ⟨.dhKem, .publicKey low, .absent⟩ := fun p h => by cases h
  have hi : ∀ x ∈ steps, x.Integral := by
    intro x hx
    simp only [steps, List.mem_cons, List.not_mem_nil, or_false] at hx
    rcases hx with rfl | rfl | rfl | rfl | rfl | rfl
    · exact hmock
    · exact hlow
    all_goals trivial
  have hd : events.map Event.demand = [0, 0, 16, 0, 32, 16] := by decide +kernel
  have hlong : (events.map Event.demand).sum ≤ data.length := by
    rw [hd]
    decide
  exact ⟨hi, hd, hlong, sessions_accounted KeyAgreement.standard data steps hi hlong⟩

end KeyCapsule.Session
