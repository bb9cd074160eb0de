import KeyCapsule.Proofs.Admission

/-! The contract of the two templates. The faults that turn a request down are listed in order of
precedence, and a side answers with the first that applies; only a request that none turns down reaches
its algorithm, once. -/
namespace KeyCapsule
variable {σ α : Type}

def Datum.ofBound : Option Int → Datum
  | .none => .none
  | .some n => .int n

def Datum.ofMessage : Option Bytes → Datum
  | .none => .none
  | .some b => .bytes b

namespace Fault

def when (f : Fault) (p : Prop) [Decidable p] : Option Fault := if p then some f else none

def first (fs : List (Option Fault)) : Option Fault := fs.findSome? id

@[simp] theorem first_nil : first [] = none := rfl

@[simp] theorem first_some (f : Fault) (fs : List (Option Fault)) : first (some f :: fs) = some f := rfl

@[simp] theorem first_none (fs : List (Option Fault)) : first (none :: fs) = first fs := rfl

private theorem first_append (fs gs : List (Option Fault)) :
    first (fs ++ gs) = (first fs).or (first gs) := by
  simp [first, List.findSome?_append]

end Fault

namespace Terms

/-- Where a window starts. The default stands for a start that is refused anyway. -/
def head (start : Option Int) : Int := start.getD 0

def tail (size : Int) (stop : Option Int) : Int := stop.getD size

theorem grant_ofBound {t : Terms σ} {size : Int} (ht : t.secretSize = pure (.int size))
    (start : Datum) (stop : Option Int) (label : Datum) :
    t.grant start (Datum.ofBound stop) label = t.grant start (.int (tail size stop)) label := by
  cases stop with
  | none => exact grant_absent ht start label
  | some n => rfl

theorem receive_ofBound {t : Terms σ} {size : Int} (ht : t.secretSize = pure (.int size))
    (hook : Bytes → Datum → Datum → Datum → Act σ α) (message start : Datum) (stop : Option Int)
    (label : Datum) :
    t.receive hook message start (Datum.ofBound stop) label =
      t.receive hook message start (.int (tail size stop)) label := by
  cases stop with
  | none => exact receive_absent ht hook message start label
  | some n => rfl

def Inside (size start stop : Int) : Prop := 0 ≤ start ∧ start ≤ stop ∧ stop ≤ size

instance (size start stop : Int) : Decidable (Inside size start stop) :=
  inferInstanceAs (Decidable (_ ∧ _))

/-- An integer of no more digits than are written. -/
def Short (n : Int) : Prop := n.natAbs < Text.digitBound

instance (n : Int) : Decidable (Short n) := inferInstanceAs (Decidable (_ < _))

/-- The faults of a window. One that is not inside the secret is named in the refusal, and a failure to write
its numbers takes the place of a refusal that cannot name it. -/
def windowFaults (size : Int) (start stop : Option Int) : List (Option Fault) :=
  [Fault.when (.missing .start) (start.isNone = true),
    Fault.when (.range (.int (head start)) (.int (tail size stop)) (.int size))
      (¬ Inside size (head start) (tail size stop) ∧
        Short (head start) ∧ Short (tail size stop) ∧ Short size),
    Fault.when .unwritable (¬ Inside size (head start) (tail size stop))]

private theorem worded_range (size start stop : Int) :
    (Fault.range (.int start) (.int stop) (.int size)).worded =
      if Short start ∧ Short stop ∧ Short size then .range (.int start) (.int stop) (.int size)
      else .unwritable := by
  have hw : (Fault.range (.int start) (.int stop) (.int size)).writable = true ↔
      Short start ∧ Short stop ∧ Short size := by
    simp only [Fault.writable, Datum.writable_int, Bool.and_eq_true, decide_eq_true_eq, and_assoc, Short]
  simp only [Fault.worded, hw]

def plainFaults (size : Int) (start stop : Option Int) (label : Datum) : List (Option Fault) :=
  Fault.when (.missing .algorithm) (label.isNone = true) :: windowFaults size start stop

/-- What a side says about its support for a window. It is asked only if nothing else is wrong. -/
def heard (t : Terms σ) (plain : List (Option Fault)) (start stop : Int) (label : Datum) (s : σ) :
    Outcome σ Bool :=
  if (Fault.first plain).isNone then (t.supports (.int start) (.int stop) label).run s
  else ⟨.ok false, [], s⟩

def declined (t : Terms σ) (start stop : Int) (label : Datum) : Except Fault Bool → Option Fault
  | .ok true => none
  | .ok false =>
    some (if Short start ∧ Short stop ∧ label.writable = true then
      .unsupported t.type (.int start) (.int stop) label else .unwritable)
  | .error e => some e

private theorem worded_unsupported (t : Terms σ) (start stop : Int) (label : Datum) :
    (Fault.unsupported t.type (.int start) (.int stop) label).worded =
      if Short start ∧ Short stop ∧ label.writable = true then
        .unsupported t.type (.int start) (.int stop) label else .unwritable := by
  have hw : (Fault.unsupported t.type (.int start) (.int stop) label).writable = true ↔
      Short start ∧ Short stop ∧ label.writable = true := by
    simp only [Fault.writable, Datum.writable_int, Bool.and_eq_true, decide_eq_true_eq, and_assoc, Short]
  simp only [Fault.worded, hw]

private theorem checkWindow_ofBound (start stop : Option Int) (size : Int) :
    checkWindow (Datum.ofBound start) (Datum.ofBound stop) (.int size) =
      match Fault.first (windowFaults size start stop) with
      | some e => .error e
      | none => .ok (.int (head start), .int (tail size stop)) := by
  cases start with
  | none => rfl
  | some n =>
    have hw : checkWindow (.int n) (Datum.ofBound stop) (.int size) =
        checkWindow (.int n) (.int (tail size stop)) (.int size) := by
      cases stop <;> rfl
    rw [Datum.ofBound, hw, checkWindow_int]
    change (if Inside size n (tail size stop) then _ else _) = _
    by_cases h : Inside size n (tail size stop) <;>
      by_cases hw : Short n ∧ Short (tail size stop) ∧ Short size <;>
        simp [windowFaults, Fault.when, head, h, hw, worded_range]

private theorem grant_run {t : Terms σ} {size : Int} (ht : t.secretSize = pure (.int size))
    (start stop : Option Int) (label : Datum) (s : σ) :
    let plain := plainFaults size start stop label
    let answer := t.heard plain (head start) (tail size stop) label s
    (t.grant (Datum.ofBound start) (Datum.ofBound stop) label).run s =
      match Fault.first (plain ++ [t.declined (head start) (tail size stop) label answer.result]) with
      | some e => ⟨.error e, answer.log, answer.state⟩
      | none => ⟨.ok (.int (head start), .int (tail size stop)), answer.log, answer.state⟩ := by
  intro plain answer
  cases hl : label.isNone with
  | true =>
    cases label with
    | none => rfl
    | _ => cases hl
  | false =>
    have hp : plain = none :: windowFaults size start stop := by
      simp [plain, plainFaults, Fault.when, hl]
    rw [grant_labelled ht hl, checkWindow_ofBound]
    cases hw : Fault.first (windowFaults size start stop) with
    | some e => simp [answer, heard, hp, Fault.first_append, hw, Act.lift_error, Act.throw_bind]
    | none =>
      have ha : answer = (t.supports (.int (head start)) (.int (tail size stop)) label).run s := by
        simp [answer, heard, hp, hw]
      rw [hp, List.cons_append, Fault.first_none, Fault.first_append, hw, Act.lift_ok, Act.pure_bind,
        Act.run_bind, ← ha]
      cases answer.result with
      | error e => rfl
      | ok yes =>
        cases yes <;> simp only [worded_unsupported, declined, Bool.not_true, Bool.not_false,
          Bool.false_eq_true, if_true, if_false, Act.throw_bind, Act.run_throw, Act.run_pure,
          Outcome.after_mk, List.append_nil, Fault.first_some, Fault.first_none, Fault.first_nil,
          Option.none_or]

private theorem serve_run {t : Terms σ} {size : Int} (ht : t.secretSize = pure (.int size))
    (hook : Datum → Datum → Datum → Act σ α) (start stop : Option Int) (label : Datum) (s : σ) :
    let plain := plainFaults size start stop label
    let answer := t.heard plain (head start) (tail size stop) label s
    (t.serve hook (Datum.ofBound start) (Datum.ofBound stop) label).run s =
      match Fault.first (plain ++ [t.declined (head start) (tail size stop) label answer.result]) with
      | some e => ⟨.error e, answer.log, answer.state⟩
      | none => ((hook (.int (head start)) (.int (tail size stop)) label).run answer.state).after
          answer.log := by
  intro plain answer
  rw [serve, Act.run_bind, grant_run ht]
  cases Fault.first (plain ++ [t.declined (head start) (tail size stop) label answer.result]) <;> rfl

/-- A granted message goes on to the comparison of its length; only one of the announced length reaches
the algorithm. -/
private theorem receive_run {t : Terms σ} {size length : Int} (ht : t.Fixed size length)
    (hook : Bytes → Datum → Datum → Datum → Act σ α) (b : Bytes) (start stop : Option Int)
    (label : Datum) (s : σ) :
    let plain := plainFaults size start stop label
    let answer := t.heard plain (head start) (tail size stop) label s
    (t.receive hook (.bytes b) (Datum.ofBound start) (Datum.ofBound stop) label).run s =
      match Fault.first (plain ++ [t.declined (head start) (tail size stop) label answer.result]) with
      | some e => ⟨.error e, answer.log, answer.state⟩
      | none =>
        if (b.length : Int) = length then
          ((t.conceal (hook b (.int (head start)) (.int (tail size stop)) label)).run
            answer.state).after answer.log
        else ⟨.error .undecapsulated, answer.log ++ [t.failure], answer.state⟩ := by
  intro plain answer
  rw [receive_bytes ht, Act.run_bind, grant_run ht.secretSize]
  cases Fault.first (plain ++ [t.declined (head start) (tail size stop) label answer.result]) with
  | some e => rfl
  | none =>
    by_cases hb : (b.length : Int) = length
    · simp only [hb, if_true]
      rfl
    · simp only [hb, if_false]
      rfl

end Terms

structure HookCall where
  message : Option Bytes
  start : Datum
  stop : Datum
  label : Datum

abbrev Noted (σ : Type) : Type := σ × List HookCall

def Outcome.noted (calls : List HookCall) (o : Outcome σ α) : Outcome (Noted σ) α :=
  ⟨o.result, o.log, (o.state, calls)⟩

def Act.beside (x : Act σ α) : Act (Noted σ) α := fun s => (x.run s.1).noted s.2

def Act.noting (c : HookCall) (x : Act σ α) : Act (Noted σ) α := fun s =>
  (x.run s.1).noted (s.2 ++ [c])

namespace Terms

def beside (t : Terms σ) : Terms (Noted σ) where
  type := t.type
  suite := t.suite
  secretSize := t.secretSize.beside
  encapsulationSize := t.encapsulationSize.beside
  supports start stop label := (t.supports start stop label).beside

def serveNoted (t : Terms σ) (hook : Datum → Datum → Datum → Act σ α) :
    Datum → Datum → Datum → Act (Noted σ) α :=
  t.beside.serve fun start stop label => (hook start stop label).noting ⟨none, start, stop, label⟩

def receiveNoted (t : Terms σ) (hook : Bytes → Datum → Datum → Datum → Act σ α) :
    Datum → Datum → Datum → Datum → Act (Noted σ) α :=
  t.beside.receive fun b start stop label =>
    (hook b start stop label).noting ⟨some b, start, stop, label⟩

/-- The sender's contract. The first fault that applies decides; without one the hook is called once,
with the resolved window, and its value or fault is passed on as it is. -/
def ServesInOrder (t : Terms σ) (size : Int) : Prop :=
  ∀ (α : Type) (hook : Datum → Datum → Datum → Act σ α) (start stop : Option Int) (label : Datum)
    (s : σ) (before : List HookCall),
    let plain := plainFaults size start stop label
    let first : Datum := .int (head start)
    let last : Datum := .int (tail size stop)
    let answer := t.heard plain (head start) (tail size stop) label s
    ∃ o calls,
      (t.serve hook (Datum.ofBound start) (Datum.ofBound stop) label).run s = o ∧
      (t.serveNoted hook (Datum.ofBound start) (Datum.ofBound stop) label).run (s, before) =
        o.noted (before ++ calls) ∧
      match Fault.first (plain ++ [t.declined (head start) (tail size stop) label answer.result]) with
      | some e => o = ⟨.error e, answer.log, answer.state⟩ ∧ calls = []
      | none => o = ((hook first last label).run answer.state).after answer.log ∧
          calls = [⟨none, first, last, label⟩]

/-- The receiver's contract. An absent message comes before all other faults and a wrong length after
them; what the hook comes to is disclosed as far as it may be. -/
def ReceivesInOrder (t : Terms σ) (size length : Int) : Prop :=
  ∀ (α : Type) (hook : Bytes → Datum → Datum → Datum → Act σ α) (message : Option Bytes)
    (start stop : Option Int) (label : Datum) (s : σ) (before : List HookCall),
    let plain := Fault.when (.missing .encapsulation) (message.isNone = true) ::
      plainFaults size start stop label
    let first : Datum := .int (head start)
    let last : Datum := .int (tail size stop)
    let answer := t.heard plain (head start) (tail size stop) label s
    let b := message.getD []
    ∃ o calls,
      (t.receive hook (Datum.ofMessage message) (Datum.ofBound start) (Datum.ofBound stop) label).run s
        = o ∧
      (t.receiveNoted hook (Datum.ofMessage message) (Datum.ofBound start) (Datum.ofBound stop)
        label).run (s, before) = o.noted (before ++ calls) ∧
      match Fault.first (plain ++ [t.declined (head start) (tail size stop) label answer.result]) with
      | some e => o = ⟨.error e, answer.log, answer.state⟩ ∧ calls = []
      | none =>
        if (b.length : Int) = length then
          let h := (hook b first last label).run answer.state
          o = ⟨(t.disclosed h.result).1, answer.log ++ h.log ++ (t.disclosed h.result).2, h.state⟩ ∧
            calls = [⟨some b, first, last, label⟩]
        else o = ⟨.error .undecapsulated, answer.log ++ [t.failure], answer.state⟩ ∧ calls = []

private theorem Fixed.beside {t : Terms σ} {size length : Int} (ht : t.Fixed size length) :
    t.beside.Fixed size length := by
  constructor
  · rw [Terms.beside, ht.secretSize]
    rfl
  · rw [Terms.beside, ht.encapsulationSize]
    rfl

private theorem heard_beside (t : Terms σ) (plain : List (Option Fault)) (start stop : Int) (label : Datum)
    (s : σ) (calls : List HookCall) :
    t.beside.heard plain start stop label (s, calls) =
      (t.heard plain start stop label s).noted calls := by
  unfold heard
  cases (Fault.first plain).isNone <;> rfl

private theorem servesInOrder {t : Terms σ} {size length : Int} (ht : t.Fixed size length) :
    t.ServesInOrder size := by
  intro α hook start stop label s before plain first last answer
  have hr := serve_run ht.secretSize hook start stop label s
  have hn := serve_run ht.beside.secretSize
    (fun start stop label => (hook start stop label).noting ⟨none, start, stop, label⟩)
    start stop label (s, before)
  simp only [heard_beside] at hn
  -- the noted run takes the same branch: its checks leave the calls as they were
  change _ = match Fault.first (plain ++ [t.declined _ _ label answer.result]) with
    | some e => _
    | none => _ at hr hn
  cases hf : Fault.first (plain ++ [t.declined (head start) (tail size stop) label answer.result]) with
  | some e =>
    rw [hf] at hr hn
    exact ⟨_, [], hr, by rw [List.append_nil]; exact hn, rfl, rfl⟩
  | none =>
    rw [hf] at hr hn
    exact ⟨_, [_], hr, hn, rfl, rfl⟩

private theorem receivesInOrder {t : Terms σ} {size length : Int} (ht : t.Fixed size length) :
    t.ReceivesInOrder size length := by
  intro α hook message start stop label s before plain first last answer b
  cases message with
  | none => exact ⟨_, [], rfl, by rw [List.append_nil]; rfl, rfl, rfl⟩
  | some b =>
    have hr := receive_run ht hook b start stop label s
    have hn := receive_run ht.beside
      (fun b start stop label => (hook b start stop label).noting ⟨some b, start, stop, label⟩)
      b start stop label (s, before)
    simp only [heard_beside] at hn
    change _ = match Fault.first (plain ++ [t.declined _ _ label answer.result]) with
      | some e => _
      | none => _ at hr hn
    cases hf : Fault.first (plain ++ [t.declined (head start) (tail size stop) label answer.result]) with
    | some e =>
      rw [hf] at hr hn
      exact ⟨_, [], hr, by rw [List.append_nil]; exact hn, rfl, rfl⟩
    | none =>
      rw [hf] at hr hn
      by_cases hb : (b.length : Int) = length
      · simp only [hb, if_true, conceal_run, Outcome.after_mk, ← List.append_assoc] at hr hn
        refine ⟨_, [⟨some b, first, last, label⟩], hr, hn, ?_⟩
        exact (if_pos hb).mpr ⟨rfl, rfl⟩
      · simp only [hb, if_false] at hr hn
        refine ⟨_, [], hr, by rw [List.append_nil]; exact hn, ?_⟩
        exact (if_neg hb).mpr ⟨rfl, rfl⟩

end Terms

end KeyCapsule
