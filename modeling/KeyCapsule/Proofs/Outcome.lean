import KeyCapsule.Proofs.Lawful
import KeyCapsule.Proofs.Template

/-! What the checks come to. Of a lawful pair every check takes a number of turns that is settled beforehand;
six of the nine checks pass, and the other three are decided by the turns that they take. -/
namespace KeyCapsule.Conformance
open Act

variable {σ α : Type}

def flipped : Bytes → Bytes
  | [] => []
  | first :: rest => (first ^^^ 1) :: rest

def secrets (turn : Nat → Turn) (n count : Nat) : List Bytes :=
  (List.range' n count).map fun i => (turn i).secret

/-- What a check comes to that begins at a turn. -/
def verdict (p : Practice σ) (workers : Int) (n : Nat) : Check → Except Fault Unit
  | .encapsulationIsFresh =>
    if (p.turn n).message = (p.turn (n + 1)).message then .error (.breach .sharedMessage)
    else if (p.turn n).secret = (p.turn (n + 1)).secret then .error (.breach .sharedSecret)
    else .ok ()
  | .tamperingIsNotSilent =>
    if p.opens (flipped (p.turn n).message) = some (p.turn n).secret then .error (.breach .tamperingSilent)
    else .ok ()
  | .concurrentEncapsulation =>
    if (secrets p.turn n (2 * workers.toNat)).Nodup then .ok () else .error (.breach .concurrentRepeat)
  | _ => .ok ()

/-- How many turns a check takes. -/
def turns (p : Practice σ) (trials workers : Int) : Check → Nat
  | .sizesAreStable | .roundTrip => trials.toNat
  | .encapsulationIsFresh => 2
  | .slicingIsConsistentOrRefused => if 2 ≤ p.secretSize ∧ p.offers 1 p.secretSize "AES" = true then 1 else 0
  | .concurrentEncapsulation => 2 * workers.toNat
  | _ => 1

private theorem sameSizes_self (m n : Int) : sameSizes (.int m, .int n) (.int m, .int n) = true := by
  simp [sameSizes]

private theorem hasLength_int {n : Nat} {size : Int} (h : (n : Int) = size) :
    hasLength n (.int size) = true := by
  simp [hasLength, h]

private theorem equals_self {k : SecretKey} {s : String} (h : k.algorithm = .text s) : k.equals k = true := by
  simp [SecretKey.equals, h]

private theorem equals_of_generic {j k : SecretKey} (hj : j.algorithm = SecretKey.generic)
    (hk : k.algorithm = SecretKey.generic) : j.equals k = (j.encoded == k.encoded) := by
  simp [SecretKey.equals, hj, hk, SecretKey.generic]

private theorem shortened_bytes (m : Bytes) :
    ∃ m', shortened (.bytes m) = .ok (.bytes m') ∧ m'.length = m.length - 1 :=
  ⟨_, rfl, Datum.length_window_last m⟩

private theorem tampered_bytes {m : Bytes} (h : m ≠ []) : tampered (.bytes m) = .ok (flipped m) := by
  cases m with
  | nil => exact absurd rfl h
  | cons first rest => rfl

namespace Lawful
variable {b : Bench σ} {p : Practice σ} (h : Lawful b p)
include h

private theorem ends_sizes (s : σ) :
    (sizes b.enc.toTerms).Ends s (.ok (.int p.secretSize, .int p.messageSize)) s := by
  rw [sizes, h.enc.secretSize, h.enc.encapsulationSize]
  exact ends_pure _ s

private theorem ends_receiverSizes (s : σ) :
    (sizes b.dec.toTerms).Ends s (.ok (.int p.secretSize, .int p.messageSize)) s := by
  rw [sizes, h.dec.secretSize, h.dec.encapsulationSize]
  exact ends_pure _ s

private theorem ends_secretSize (s : σ) : b.enc.secretSize.Ends s (.ok (.int p.secretSize)) s := by
  rw [h.enc.secretSize]
  exact ends_pure _ s

private theorem ends_encapsulationSize (s : σ) :
    b.enc.encapsulationSize.Ends s (.ok (.int p.messageSize)) s := by
  rw [h.enc.encapsulationSize]
  exact ends_pure _ s

private theorem ends_sizesAreStable (n : Nat) :
    (sizesAreStable b).Ends (p.place n) (.ok ()) (p.place (n + b.trials.toNat)) := by
  refine (h.ends_sizes _).bind ((h.ends_receiverSizes _).bind
    ((ends_require (sameSizes_self _ _) _ _).bind (ends_times (fun n => ?_) _ n)))
  obtain ⟨r, hr, -⟩ := h.ends_whole n
  exact hr.bind ((h.ends_sizes _).bind ((ends_require (sameSizes_self _ _) _ _).bind
    ((h.ends_receiverSizes _).bind (ends_require (sameSizes_self _ _) _ _))))

private theorem ends_roundTrip (n : Nat) :
    (roundTrip b).Ends (p.place n) (.ok ()) (p.place (n + b.trials.toNat)) := by
  refine ends_times (fun n => ?_) _ n
  obtain ⟨r, hr, hm, hk, ha⟩ := h.ends_whole n
  have hkey : hasLength r.key.encoded.length (.int p.secretSize) = true :=
    hasLength_int (by rw [hk, h.length_secret])
  have hmessage : hasLength (p.turn n).message.length (.int p.messageSize) = true :=
    hasLength_int (h.length_message n)
  have hsize : (liftM r.encapsulation.size : Act σ Nat).Ends (p.place (n + 1))
      (.ok (p.turn n).message.length) (p.place (n + 1)) := by
    rw [hm]
    exact ends_lift _ _
  exact hr.bind ((h.ends_secretSize _).bind ((ends_require hkey _ _).bind (hsize.bind
    ((h.ends_encapsulationSize _).bind ((ends_require hmessage _ _).bind
      ((h.ends_reopened hm hk ha _).bind (ends_require (equals_self ha) _ _)))))))

private theorem ends_encapsulationIsFresh (n : Nat) :
    (encapsulationIsFresh b).Ends (p.place n) (verdict p b.workers n .encapsulationIsFresh)
      (p.place (n + 2)) := by
  obtain ⟨r, hr, hm, hk, ha⟩ := h.ends_whole n
  obtain ⟨r', hr', hm', hk', ha'⟩ := h.ends_whole (n + 1)
  refine hr.bind (hr'.bind ?_)
  rw [hm, hm', Datum.equals_bytes, equals_of_generic ha ha', hk, hk', verdict]
  by_cases hme : (p.turn n).message = (p.turn (n + 1)).message
  · rw [if_pos hme]
    exact (ends_require_not (by simp [hme]) _ _).bind_error
  · rw [if_neg hme]
    refine (ends_require (by simp [hme]) _ _).bind ?_
    by_cases hse : (p.turn n).secret = (p.turn (n + 1)).secret
    · rw [if_pos hse]
      exact ends_require_not (by simp [hse]) _ _
    · rw [if_neg hse]
      exact ends_require (by simp [hse]) _ _

private theorem ends_decapsulationIsDeterministic (n : Nat) :
    (decapsulationIsDeterministic b).Ends (p.place n) (.ok ()) (p.place (n + 1)) := by
  obtain ⟨r, hr, hm, hk, ha⟩ := h.ends_whole n
  have ho := h.ends_reopened hm hk ha (p.place (n + 1))
  exact hr.bind (ho.bind (ho.bind (ends_require (equals_self ha) _ _)))

private theorem ends_expectRanges {start stop : Int} (ho : ¬ (0 ≤ start ∧ start ≤ stop ∧ stop ≤ p.secretSize))
    (hw : (Fault.range (.int start) (.int stop) (.int p.secretSize)).writable = true) (m : Bytes) (s : σ) :
    (expectRanges b (.bytes m) (.int start) (.int stop)).Ends s (.ok ()) s := by
  rw [expectRanges_outside h.enc.secretSize h.dec.secretSize ⟨_, h.encapsulate⟩ ⟨_, h.decapsulate⟩ rfl ho,
    if_pos hw]
  exact ends_pure () s

private theorem ends_badRangesAreBoundaryErrors (n : Nat) :
    (badRangesAreBoundaryErrors b).Ends (p.place n) (.ok ()) (p.place (n + 1)) := by
  obtain ⟨r, hr, hm, -⟩ := h.ends_whole n
  refine (h.ends_secretSize _).bind (hr.bind ((ends_lift _ _).bind ?_))
  have hpos := h.secret_pos
  have hsmall := h.secret_small
  have hw : (Datum.int (p.secretSize + 1)).writable = true := Datum.writable_small (by omega)
  obtain ⟨h₁, h₂, h₃, -⟩ := by simpa only [List.forall_mem_cons] using range_writable (by omega) hw
  rw [hm]
  exact (h.ends_expectRanges (by omega) h₁ _ _).bind ((h.ends_expectRanges (by omega) h₂ _ _).bind
    (h.ends_expectRanges (by omega) h₃ _ _))

private theorem ends_expectFailure {m : Bytes} (hm : (m.length : Int) ≠ p.messageSize) (s : σ) :
    (expectFailure b (.bytes m)).Ends s (.ok ()) s :=
  (h.ends_misfit hm s).attempt.bind (ends_pure () s)

private theorem ends_wrongLengthIsDecapsulationFailure (n : Nat) :
    (wrongLengthIsDecapsulationFailure b).Ends (p.place n) (.ok ()) (p.place (n + 1)) := by
  obtain ⟨r, hr, hm, -⟩ := h.ends_whole n
  obtain ⟨short, hshort, hlength⟩ := shortened_bytes (p.turn n).message
  have hn := h.length_message n
  have hpos := h.message_pos
  have hlong : ((((p.turn n).message ++ [0] : Bytes).length : Nat) : Int) ≠ p.messageSize := by
    rw [List.length_append, List.length_singleton]
    omega
  refine hr.bind ?_
  dsimp only
  rw [hm, hshort]
  exact (ends_lift _ _).bind ((ends_lift _ _).bind ((h.ends_expectFailure (by omega) _).bind
    ((h.ends_expectFailure hlong _).bind (h.ends_expectFailure (by rw [List.length_nil]; omega) _))))

private theorem ends_tamperingIsNotSilent (n : Nat) :
    (tamperingIsNotSilent b).Ends (p.place n) (verdict p b.workers n .tamperingIsNotSilent)
      (p.place (n + 1)) := by
  obtain ⟨r, hr, hm, hk, ha⟩ := h.ends_whole n
  have hne : (p.turn n).message ≠ [] := by
    intro he
    have hn := h.length_message n
    have hpos := h.message_pos
    rw [he, List.length_nil] at hn
    omega
  have ho := h.ends_opened (flipped (p.turn n).message) (p.place (n + 1))
  refine hr.bind ?_
  rw [hm, tampered_bytes hne, verdict]
  refine (ends_lift _ _).bind ?_
  cases hx : p.opens (flipped (p.turn n).message) with
  | none =>
    rw [hx] at ho
    exact ho.attempt.bind (ends_pure () _)
  | some secret =>
    rw [hx] at ho
    obtain ⟨k, hopen, hke, hka⟩ := ho
    refine hopen.attempt.bind ?_
    dsimp only
    rw [equals_of_generic hka ha, hke, hk]
    by_cases he : secret = (p.turn n).secret
    · rw [if_pos (congrArg some he)]
      exact ends_require_not (by simp [he]) _ _
    · rw [if_neg fun hs => he (Option.some.inj hs)]
      exact ends_require (by simp [he]) _ _

private theorem ends_slicingIsConsistentOrRefused (n : Nat) :
    (slicingIsConsistentOrRefused b).Ends (p.place n) (.ok ())
      (p.place (n + turns p b.trials b.workers .slicingIsConsistentOrRefused)) := by
  refine (h.ends_secretSize _).bind ?_
  rw [Datum.less_int]
  refine (ends_lift _ _).bind ?_
  by_cases hsize : p.secretSize < 2
  · have hturns : turns p b.trials b.workers .slicingIsConsistentOrRefused = 0 :=
      if_neg fun hc => absurd hc.1 (by omega)
    simp only [hturns, decide_eq_true hsize, if_true]
    exact ends_pure () _
  · have hwide : (1 : Int) < p.secretSize := by omega
    have hs : (b.enc.supports (.int 1) (.int p.secretSize) (.text "AES")).Ends (p.place n)
        (.ok (p.offers 1 p.secretSize "AES")) (p.place n) := h.answers .. ▸ ends_pure _ _
    simp only [decide_eq_false hsize, Bool.false_eq_true, if_false]
    refine hs.bind ?_
    cases ho : p.offers 1 p.secretSize "AES" with
    | false =>
      have hturns : turns p b.trials b.workers .slicingIsConsistentOrRefused = 0 :=
        if_neg fun hc => Bool.false_ne_true (ho.symm.trans hc.2)
      have hr := h.ends_encapsulate_unsupported (by decide) (Int.le_of_lt hwide) (Int.le_refl _) ho
        (p.place n)
      rw [hturns]
      exact hr.attempt.bind (ends_pure () _)
    | true =>
      have hturns : turns p b.trials b.workers .slicingIsConsistentOrRefused = 1 :=
        if_pos ⟨by omega, ho⟩
      rw [hturns]
      obtain ⟨r, hr, hm, hk, ha⟩ := h.ends_encapsulate n (by decide) hwide (Int.le_refl _) ho
      have hlength : hasLength r.key.encoded.length (.int (p.secretSize + -1)) = true := by
        refine hasLength_int ?_
        rw [hk, ← h.length_secret n, Bytes.length_cut (by decide) (by rw [h.length_secret]; omega)
          (Int.le_refl _)]
        rfl
      have hlabel : r.key.algorithm.equals "AES" = true := by
        rw [ha]
        simp
      have hd := h.ends_decapsulate (p.turn n).message (by decide) hwide (Int.le_refl _) ho (p.place (n + 1))
      rw [h.opened] at hd
      obtain ⟨k, hd, hke, hka⟩ := hd
      rw [← hm, SecretKey.eq_of_parts (hke.trans hk.symm) (hka.trans ha.symm)] at hd
      exact hr.bind ((ends_lift _ _).bind ((ends_require hlength _ _).bind ((ends_require hlabel _ _).bind
        (hd.bind (ends_require (equals_self ha) _ _)))))

theorem ends_reopen {n : Nat} {r : Encapsulated} (hm : r.encapsulation = .bytes (p.turn n).message)
    (hk : r.key.encoded = (p.turn n).secret) (ha : r.key.algorithm = SecretKey.generic) (s : σ) :
    (reopen b r).Ends s (.ok ()) s := by
  have hmessage : hasLength (p.turn n).message.length (.int p.messageSize) = true :=
    hasLength_int (h.length_message n)
  have hsize : (liftM r.encapsulation.size : Act σ Nat).Ends s (.ok (p.turn n).message.length) s := by
    rw [hm]
    exact ends_lift _ _
  exact hsize.bind ((h.ends_encapsulationSize s).bind ((ends_require hmessage _ _).bind
    ((h.ends_reopened hm hk ha s).bind (ends_require (equals_self ha) _ _))))

/-- All requests but the last are begun together; in the end each has taken a turn. -/
private theorem ends_concurrentEncapsulation (hw : 1 ≤ b.workers) (n : Nat) :
    (concurrentEncapsulation b).Ends (p.place n) (verdict p b.workers n .concurrentEncapsulation)
      (p.place (n + 2 * b.workers.toNat)) := by
  choose given hgiven using h.ends_whole
  have hmade := fun n => (hgiven n).1
  have hcount : 2 * b.workers.toNat - 1 + 1 = 2 * b.workers.toNat := by omega
  have hall : (List.range' n (2 * b.workers.toNat - 1)).map given ++
      (List.range' (n + (2 * b.workers.toNat - 1)) 1).map given =
        (List.range' n (2 * b.workers.toNat)).map given := by
    rw [← List.map_append, List.range'_append_1, hcount]
  have hkeys : ((List.range' n (2 * b.workers.toNat)).map given).map (fun r => r.key.encoded) =
      secrets p.turn n (2 * b.workers.toNat) := by
    rw [List.map_map, secrets]
    exact List.map_congr_left fun i _ => (hgiven i).2.2.1
  have hbegun := ends_gather hmade (2 * b.workers.toNat - 1) n
  have hlast := ends_gather hmade 1 (n + (2 * b.workers.toNat - 1))
  rw [Nat.add_assoc n, hcount] at hlast
  rw [concurrentEncapsulation, if_neg (by omega)]
  refine hbegun.bind ((ends_settle _ _).bind (hlast.bind ((ends_settle _ _).bind ?_)))
  rw [hall, judgeConcurrent_eq, verdict]
  by_cases hd : (secrets p.turn n (2 * b.workers.toNat)).Nodup
  · rw [if_pos hd]
    refine (ends_require ((keys_distinct_iff _).2 (hkeys ▸ hd)) _ _).bind (ends_forM fun r hr => ?_)
    obtain ⟨i, -, rfl⟩ := List.mem_map.1 hr
    exact h.ends_reopen (hgiven i).2.1 (hgiven i).2.2.1 (hgiven i).2.2.2 _
  · rw [if_neg hd]
    refine (ends_require_not (Bool.eq_false_iff.2 fun hk => hd ?_) _ _).bind_error
    exact hkeys ▸ (keys_distinct_iff _).1 hk

private theorem ends_check (hw : 1 ≤ b.workers) (c : Check) (n : Nat) :
    (c.run b).Ends (p.place n) (verdict p b.workers n c) (p.place (n + turns p b.trials b.workers c)) := by
  cases c with
  | sizesAreStable => exact h.ends_sizesAreStable n
  | roundTrip => exact h.ends_roundTrip n
  | encapsulationIsFresh => exact h.ends_encapsulationIsFresh n
  | decapsulationIsDeterministic => exact h.ends_decapsulationIsDeterministic n
  | badRangesAreBoundaryErrors => exact h.ends_badRangesAreBoundaryErrors n
  | wrongLengthIsDecapsulationFailure => exact h.ends_wrongLengthIsDecapsulationFailure n
  | tamperingIsNotSilent => exact h.ends_tamperingIsNotSilent n
  | slicingIsConsistentOrRefused => exact h.ends_slicingIsConsistentOrRefused n
  | concurrentEncapsulation => exact h.ends_concurrentEncapsulation hw n

end Lawful

def verdictsFrom (p : Practice σ) (trials workers : Int) : Nat → List Check → List (Check × Except Fault Unit)
  | _, [] => []
  | n, c :: rest =>
    (c, verdict p workers n c) :: verdictsFrom p trials workers (n + turns p trials workers c) rest

def start (p : Practice σ) (trials workers : Int) : Check → Nat
  | .sizesAreStable => 0
  | .roundTrip => trials.toNat
  | .encapsulationIsFresh => 2 * trials.toNat
  | .decapsulationIsDeterministic => 2 * trials.toNat + 2
  | .badRangesAreBoundaryErrors => 2 * trials.toNat + 3
  | .wrongLengthIsDecapsulationFailure => 2 * trials.toNat + 4
  | .tamperingIsNotSilent => 2 * trials.toNat + 5
  | .slicingIsConsistentOrRefused => 2 * trials.toNat + 6
  | .concurrentEncapsulation =>
    2 * trials.toNat + 6 + turns p trials workers .slicingIsConsistentOrRefused

theorem verdictsFrom_all (p : Practice σ) (trials workers : Int) :
    verdictsFrom p trials workers 0 Check.all =
      Check.all.map fun c => (c, verdict p workers (start p trials workers c) c) := by
  simp only [Check.all, verdictsFrom, List.map_cons, List.map_nil, start, turns, Nat.zero_add, Nat.two_mul]

private theorem verdict_error {p : Practice σ} {workers : Int} {n : Nat} {c : Check} {e : Fault}
    (h : verdict p workers n c = .error e) : ∃ breach, e = .breach breach := by
  cases c with
  | encapsulationIsFresh =>
    rw [verdict] at h
    split at h
    · exact ⟨_, (Except.error.inj h).symm⟩
    · split at h
      · exact ⟨_, (Except.error.inj h).symm⟩
      · cases h
  | tamperingIsNotSilent =>
    rw [verdict] at h
    split at h
    · exact ⟨_, (Except.error.inj h).symm⟩
    · cases h
  | concurrentEncapsulation =>
    rw [verdict] at h
    split at h
    · cases h
    · exact ⟨_, (Except.error.inj h).symm⟩
  | _ => cases h

/-- Breaches do not end the run, so every verdict is passed on. -/
theorem judged_verdict (p : Practice σ) (workers : Int) (n : Nat) (c : Check) :
    judged (verdict p workers n c) = .ok (verdict p workers n c) := by
  cases hv : verdict p workers n c with
  | ok u => rfl
  | error e =>
    obtain ⟨breach, rfl⟩ := verdict_error hv
    rfl

theorem Lawful.ends_verdicts {b : Bench σ} {p : Practice σ} (h : Lawful b p) (hw : 1 ≤ b.workers)
    (title : Datum) (cs : List Check) (n : Nat) :
    ∃ t, (verdicts title b cs).Ends (p.place n) (.ok (verdictsFrom p b.trials b.workers n cs)) t := by
  induction cs generalizing n with
  | nil => exact ⟨_, ends_pure [] _⟩
  | cons c rest ih =>
    obtain ⟨hr, hs⟩ := h.ends_check hw c n
    obtain ⟨t, ht⟩ := ih (n + turns p b.trials b.workers c)
    have hj : (judge (c.run b)).Ends (p.place n) (.ok (verdict p b.workers n c))
        (p.place (n + turns p b.trials b.workers c)) := by
      rw [Act.Ends, judge_run, hr, judged_verdict, hs]
      exact ⟨rfl, rfl⟩
    exact ⟨t, hj.bind ((ends_of_run (t := p.place _) rfl).bind (ht.bind (ends_pure _ _)))⟩

/-- Whether a check passes is decided by the turns that it takes; six checks pass whatever they are. -/
def Passes (p : Practice σ) (trials workers : Int) (c : Check) : Prop :=
  let n := start p trials workers c
  match c with
  | .encapsulationIsFresh =>
    (p.turn n).message ≠ (p.turn (n + 1)).message ∧ (p.turn n).secret ≠ (p.turn (n + 1)).secret
  | .tamperingIsNotSilent => p.opens (flipped (p.turn n).message) ≠ some (p.turn n).secret
  | .concurrentEncapsulation =>
    ∀ i j, i < j → j < 2 * workers.toNat → (p.turn (n + i)).secret ≠ (p.turn (n + j)).secret
  | _ => True

private theorem nodup_secrets_iff (turn : Nat → Turn) (n count : Nat) :
    (secrets turn n count).Nodup ↔
      ∀ i j, i < j → j < count → (turn (n + i)).secret ≠ (turn (n + j)).secret := by
  rw [List.Nodup, List.pairwise_iff_getElem]
  simp only [secrets, List.length_map, List.length_range', List.getElem_map, List.getElem_range', Nat.one_mul]
  exact ⟨fun h i j hij hj => h i j (by omega) hj hij, fun h i j _ hj hij => h i j hij hj⟩

private theorem verdict_ok_iff (p : Practice σ) (trials workers : Int) (c : Check) :
    verdict p workers (start p trials workers c) c = .ok () ↔ Passes p trials workers c := by
  cases c with
  | encapsulationIsFresh =>
    simp only [verdict, Passes]
    split
    · simp_all
    · split <;> simp_all
  | tamperingIsNotSilent =>
    simp only [verdict, Passes]
    split <;> simp_all
  | concurrentEncapsulation =>
    simp only [verdict, Passes, ← nodup_secrets_iff]
    split <;> simp_all
  | _ => simp [verdict, Passes]

/-- A run that lists a check as passed if its turns let it pass, and as failed otherwise. -/
def Fair (result : Except Fault Report) (p : Practice σ) (trials workers : Int) : Prop :=
  ∃ report, result = .ok report ∧ ∀ c : Check,
    (c.name ∈ report.passed ↔ Passes p trials workers c) ∧ (Fails report c ↔ ¬ Passes p trials workers c)

/-- The report on a lawful pair. -/
theorem Lawful.run_result {b : Bench σ} {p : Practice σ} (h : Lawful b p) (hw : 1 ≤ b.workers)
    (title : Datum) :
    ((run title b).run (p.place 0)).result = .ok (reportOf title
      (Check.all.map fun c => (c, verdict p b.workers (start p b.trials b.workers c) c))) := by
  obtain ⟨t, hv⟩ := h.ends_verdicts hw title Check.all 0
  rw [verdictsFrom_all] at hv
  exact (hv.bind (f := fun vs => Pure.pure (reportOf title vs)) (ends_pure _ _)).1

private theorem Lawful.fair {b : Bench σ} {p : Practice σ} (h : Lawful b p) (hw : 1 ≤ b.workers)
    (title : Datum) :
    Fair ((run title b).run (p.place 0)).result p b.trials b.workers := by
  refine ⟨_, h.run_result hw title, fun c => ?_⟩
  have hmem : ∀ v, (c, v) ∈ Check.all.map
      (fun c => (c, verdict p b.workers (start p b.trials b.workers c) c)) ↔
        verdict p b.workers (start p b.trials b.workers c) c = v := by
    intro v
    refine ⟨fun hv => ?_, fun hv => List.mem_map.2 ⟨c, mem_all c, hv ▸ rfl⟩⟩
    obtain ⟨d, -, hd⟩ := List.mem_map.1 hv
    cases hd
    rfl
  rw [mem_passed_iff, fails_iff, ← verdict_ok_iff, hmem]
  refine ⟨Iff.rfl, ?_⟩
  simp only [hmem]
  cases verdict p b.workers (start p b.trials b.workers c) c with
  | ok u => simp
  | error e => simp

/-- Checks of a provider that bound a lawful pair are fair. -/
theorem Lawful.check_fair {b : Bench σ} {p : Practice σ} (h : Lawful b p) (hw : 1 ≤ b.workers)
    {q : Provider σ} {sender receiver : KeyValue} {params : ParamsValue} {choice : SourceChoice σ}
    {title : Datum}
    (hs : Staged q sender receiver params choice title (p.place 0) b.enc b.dec (p.place 0)) :
    Fair ((check q sender receiver params b.trials b.workers choice title).run (p.place 0)).result p
      b.trials b.workers := by
  obtain ⟨own, hc⟩ := hs.check_result b.trials b.workers
  rw [hc]
  exact h.fair hw own

end KeyCapsule.Conformance
