import KeyCapsule.Logging

/-! Log records under repeated configurations. The first configuration decides where records go, the last one
which records of the library's own loggers do, and records of other loggers are not affected. -/
namespace KeyCapsule.Logging

def Own (logger : String) : Prop :=
  logger = library ∨ library.toList ++ ['.'] <+: logger.toList

/-- A name below the library's whose next part is empty, so that two dots stand side by side. -/
def Hollow (logger : String) : Prop := library.toList ++ ['.', '.'] <+: logger.toList

instance : DecidablePred Own := fun _ => inferInstanceAs (Decidable (_ ∨ _))

instance : DecidablePred Hollow := fun _ => inferInstanceAs (Decidable (_ <+: _))

/-- One of the library's own loggers from which the search upwards misses the library's: it passes over the
dot behind the library's name. -/
def Missed (l : Logging) (logger : String) : Prop :=
  Own logger ∧ library ∉ logger :: { l with known := logger :: l.known }.above logger

instance (l : Logging) : DecidablePred (Missed l) := fun _ => inferInstanceAs (Decidable (_ ∧ _))

/-- The least level at which a record is written once the library's loggers are set to a level: their own, or
that of a warning where it is zero or does not reach the logger. -/
def inForce (l : Logging) (level : Int) (logger : String) : Int :=
  if Own logger ∧ ¬ Missed l logger ∧ level ≠ 0 then level else Level.warning

/-- The loggers at the time when one of them is first asked for a record of some level, and its verdict kept. -/
def asOf (l : Logging) (logger : String) (n : Int) : List Record → Logging
  | [] => l
  | r :: rest => if r.logger = logger ∧ r.level = n then l else (l.log r).1.asOf logger n rest

/-! Loggers above others. -/

private theorem split_of_mem_line {known : List Char → Bool} {cs front : List Char}
    (h : front ∈ line known cs) :
    front ≠ [] ∧ ∃ behind, cs = behind ++ '.' :: front := by
  induction cs using line.induct known with
  | case1 => cases h
  | case2 c => cases h
  | case3 d rest hk ih =>
    rw [line, if_pos rfl, if_pos hk] at h
    rcases List.mem_cons.1 h with rfl | h
    · exact ⟨List.cons_ne_nil _ _, [], rfl⟩
    · obtain ⟨hf, behind, hb⟩ := ih h
      exact ⟨hf, '.' :: behind, by rw [hb]; rfl⟩
  | case4 d rest hk ih =>
    rw [line, if_pos rfl, if_neg hk] at h
    obtain ⟨hf, behind, hb⟩ := ih h
    exact ⟨hf, '.' :: d :: behind, by rw [hb]; rfl⟩
  | case5 c d rest hc ih =>
    rw [line, if_neg hc] at h
    obtain ⟨hf, behind, hb⟩ := ih h
    exact ⟨hf, c :: behind, by rw [hb]; rfl⟩

/-- A known logger is above every name below its own, unless two dots stand side by side behind it. -/
private theorem mem_line {known : List Char → Bool} {d : Char} {rest : List Char}
    (hk : known (d :: rest) = true) :
    ∀ behind : List Char, behind.getLast? ≠ some '.' →
      d :: rest ∈ line known (behind ++ '.' :: d :: rest)
  | [], _ => by
    rw [List.nil_append, line, if_pos rfl, if_pos hk]
    exact List.mem_cons_self
  | [c], hb => by
    have hc : c ≠ '.' := fun hc => hb (by rw [hc]; rfl)
    rw [List.singleton_append, line, if_neg hc, line, if_pos rfl, if_pos hk]
    exact List.mem_cons_self
  | c :: e :: behind, hb => by
    have hb' : (e :: behind).getLast? ≠ some '.' := by rwa [List.getLast?_cons_cons] at hb
    have hfront := mem_line hk (e :: behind) hb'
    rw [List.cons_append] at hfront
    rw [List.cons_append, List.cons_append, line]
    split
    · split
      · exact List.mem_cons_of_mem _ hfront
      · -- the search goes on behind one more character, which is not the one next to the known logger's dot
        refine mem_line hk behind fun hl => hb' ?_
        rw [List.getLast?_cons, hl]
        rfl
    · exact hfront

variable {l : Logging} {stream : Nat} {level : Int}

private theorem ne_root_of_mem_above {logger name : String} (h : name ∈ l.above logger) : name ≠ root := by
  obtain ⟨front, hf, rfl⟩ := List.mem_map.1 h
  obtain ⟨hne, -⟩ := split_of_mem_line hf
  intro hr
  have hl := congrArg String.toList hr
  rw [String.toList_ofList] at hl
  exact hne (List.reverse_eq_nil_iff.1 hl)

private theorem below_of_library_mem_above {logger : String} (h : library ∈ l.above logger) :
    library.toList ++ ['.'] <+: logger.toList := by
  obtain ⟨front, hf, hl⟩ := List.mem_map.1 h
  obtain ⟨-, behind, hb⟩ := split_of_mem_line hf
  refine ⟨behind.reverse, ?_⟩
  rw [← hl, String.toList_ofList, ← List.reverse_reverse logger.toList, hb]
  simp only [List.reverse_append, List.reverse_cons]

private theorem library_mem_above (hk : library ∈ l.known) {logger : String} (hh : ¬ Hollow logger)
    (hb : library.toList ++ ['.'] <+: logger.toList) : library ∈ l.above logger := by
  obtain ⟨behind, hb⟩ := hb
  have hlast : behind.reverse.getLast? ≠ some '.' := by
    intro hl
    rw [List.getLast?_reverse] at hl
    obtain ⟨rest, rfl⟩ := List.head?_eq_some_iff.1 hl
    exact hh ⟨rest, by rw [← hb]; rfl⟩
  have hlib : String.ofList library.toList.reverse.reverse = library := by
    rw [List.reverse_reverse, String.ofList_toList]
  refine List.mem_map.2 ⟨library.toList.reverse, ?_, hlib⟩
  have hrev : logger.toList.reverse = behind.reverse ++ '.' :: library.toList.reverse := by
    rw [← hb]
    simp only [List.reverse_append, List.reverse_cons, List.reverse_nil, List.nil_append,
      List.singleton_append]
  rw [hrev]
  refine mem_line ?_ behind.reverse hlast
  exact List.contains_iff_mem.2 hk

private theorem hollow_of_missed (hk : library ∈ l.known) {logger : String} (h : Missed l logger) :
    Hollow logger := by
  refine Decidable.byContradiction fun hh => ?_
  obtain ⟨rfl | hb, hm⟩ := h
  · exact hm List.mem_cons_self
  · exact hm (List.mem_cons_of_mem _ (library_mem_above (List.mem_cons_of_mem _ hk) hh hb))

/-! One configuration and one record. -/

private theorem level_setLevel (l : Logging) (logger name : String) (level : Int) :
    (l.setLevel logger level).level name = if name = logger then level else l.level name := by
  rw [Logging.level, setLevel, List.lookup_cons]
  split <;> simp_all [Logging.level]

structure Configured (l : Logging) (stream : Nat) (level : Int) : Prop where
  destinations : l.destinations = [stream]
  root : l.level root = Level.warning
  library : l.level library = level
  others : ∀ logger, logger ≠ Logging.root → logger ≠ Logging.library → l.level logger = 0
  known : Logging.library ∈ l.known

structure Bare (l : Logging) : Prop where
  destinations : l.destinations = []
  others : ∀ logger, logger ≠ root → logger ≠ library → l.level logger = 0

private theorem bare_initial : Bare {} where
  destinations := rfl
  others logger hr _ := by
    have hr : (logger == root) = false := beq_eq_false_iff_ne.2 hr
    rw [Logging.level, List.lookup_cons, hr]
    rfl

theorem Bare.configure (h : Bare l) (level : Int) (stream : Nat) :
    Configured (l.configure level stream) stream level := by
  have hi : l.install stream Level.warning = { l with destinations := [stream] }.setLevel root Level.warning := by
    rw [install, h.destinations]
    rfl
  rw [Logging.configure, hi]
  refine ⟨rfl, ?_, ?_, ?_, List.mem_cons_self⟩
  · rw [level_setLevel, level_setLevel, if_neg (by decide), if_pos rfl]
  · rw [level_setLevel, if_pos rfl]
  · intro logger hr hl
    rw [level_setLevel, level_setLevel, if_neg hl, if_neg hr]
    exact h.others logger hr hl

/-- A later configuration moves one level and nothing else. -/
theorem Configured.configure (h : Configured l stream level) (level' : Int) (stream' : Nat) :
    Configured (l.configure level' stream') stream level' := by
  have hi : l.install stream' Level.warning = l := by
    rw [install, h.destinations]
    rfl
  rw [Logging.configure, hi]
  refine ⟨h.destinations, ?_, ?_, ?_, List.mem_cons_self⟩
  · rw [level_setLevel, if_neg (by decide), h.root]
  · rw [level_setLevel, if_pos rfl]
  · intro logger hr hl
    rw [level_setLevel, if_neg hl]
    exact h.others logger hr hl

private theorem Configured.firstLevel_eq (h : Configured l stream level) {names : List String}
    (hn : ∀ name ∈ names, name ≠ Logging.root) :
    l.firstLevel names = if Logging.library ∈ names ∧ level ≠ 0 then level else Level.warning := by
  induction names with
  | nil =>
    rw [firstLevel, h.root, if_neg]
    rintro ⟨hm, -⟩
    cases hm
  | cons name rest ih =>
    have ih := ih fun name hm => hn name (List.mem_cons_of_mem _ hm)
    rw [firstLevel]
    by_cases hl : name = Logging.library
    · subst hl
      rw [h.library, ih]
      by_cases hz : level = 0
      · simp [hz]
      · simp [hz]
    · rw [h.others name (hn name List.mem_cons_self) hl, if_pos rfl, ih]
      simp [List.mem_cons, Ne.symm hl]

private theorem Configured.threshold_eq (h : Configured l stream level) (logger : String) :
    l.threshold logger =
      if Logging.library ∈ logger :: l.above logger ∧ level ≠ 0 then level else Level.warning := by
  rw [threshold]
  by_cases hr : logger = Logging.root
  · subst hr
    rw [firstLevel, h.root, if_neg (by decide), if_neg]
    rintro ⟨hm, -⟩
    rcases List.mem_cons.1 hm with he | hm
    · exact absurd he (by decide)
    · exact absurd (below_of_library_mem_above hm) (by decide)
  · refine h.firstLevel_eq fun name hm => ?_
    rcases List.mem_cons.1 hm with rfl | hm
    · exact hr
    · exact ne_root_of_mem_above hm

/-- Asking for a logger changes nothing, as a known logger has no level until it is set. -/
private theorem Configured.meet (h : Configured l stream level) (logger : String) :
    Configured { l with known := logger :: l.known } stream level :=
  ⟨h.destinations, h.root, h.library, h.others, List.mem_cons_of_mem _ h.known⟩

theorem Configured.judge (h : Configured l stream level) (logger : String) (n : Int) :
    Configured (l.judge logger n).1 stream level := by
  rw [Logging.judge]
  cases l.verdicts.lookup (logger, n) with
  | some verdict => exact h
  | none => exact ⟨h.destinations, h.root, h.library, h.others, List.mem_cons_of_mem _ h.known⟩

private theorem Configured.admits_eq (h : Configured l stream level) (logger : String) {n : Int} (hn : 0 < n) :
    { l with known := logger :: l.known }.admits logger n = decide (inForce l level logger ≤ n) := by
  have hfound : Logging.library ∈ logger :: { l with known := logger :: l.known }.above logger ↔
      Own logger ∧ ¬ Missed l logger := by
    constructor
    · intro hm
      refine ⟨?_, fun hmissed => hmissed.2 hm⟩
      rcases List.mem_cons.1 hm with rfl | hm
      · exact .inl rfl
      · exact .inr (below_of_library_mem_above hm)
    · rintro ⟨ho, hmissed⟩
      exact Decidable.byContradiction fun hm => hmissed ⟨ho, hm⟩
  rw [admits, (h.meet logger).threshold_eq, decide_eq_true hn, Bool.true_and, inForce]
  simp only [hfound, and_assoc]

/-! Many configurations, and many records. -/

theorem Configured.configured {call : Int × Nat} (h : Configured l stream call.1) (later : List (Int × Nat)) :
    Configured (l.configured later) stream (later.getLastD call).1 := by
  -- on the configurations that are left; the destination stays and the level is the latest one
  induction later generalizing l call with
  | nil => exact h
  | cons next rest ih =>
    rw [List.getLastD_cons]
    exact ih (h.configure next.1 next.2)

theorem Bare.configured (h : Bare l) {calls : List (Int × Nat)} (hc : calls ≠ []) :
    Configured (l.configured calls) (calls.head hc).2 (calls.getLast hc).1 := by
  obtain ⟨call, later, rfl⟩ := List.exists_cons_of_ne_nil hc
  rw [List.getLast_eq_getLastD]
  exact (h.configure call.1 call.2).configured later

private theorem Configured.asOf (h : Configured l stream level) (logger : String) (n : Int)
    (records : List Record) :
    Configured (l.asOf logger n records) stream level := by
  induction records generalizing l with
  | nil => exact h
  | cons r rest ih =>
    rw [Logging.asOf]
    split
    · exact h
    · exact ih (h.judge r.logger r.level)

/-- The verdict on all records of a logger and a level: the one that was kept, or else the one that the first of
them is given. -/
def settled (l : Logging) (level : Int) (records : List Record) (logger : String) (n : Int) : Bool :=
  (l.verdicts.lookup (logger, n)).getD (decide (inForce (l.asOf logger n records) level logger ≤ n))

private theorem Configured.judge_settled (h : Configured l stream level) (r : Record) (hr : 0 < r.level)
    (rest : List Record) : (l.judge r.logger r.level).2 = l.settled level (r :: rest) r.logger r.level := by
  rw [Logging.judge, settled, Logging.asOf, if_pos ⟨rfl, rfl⟩]
  cases l.verdicts.lookup (r.logger, r.level) with
  | some verdict => rfl
  | none => exact h.admits_eq r.logger hr

/-- A verdict on one record is none on the records of other loggers or levels, and the last word on all others of
its own. -/
private theorem Configured.settled_judge (h : Configured l stream level) (r : Record) (hr : 0 < r.level)
    (rest : List Record) (logger : String) (n : Int) :
    (l.judge r.logger r.level).1.settled level rest logger n = l.settled level (r :: rest) logger n := by
  by_cases hk : r.logger = logger ∧ r.level = n
  · obtain ⟨rfl, rfl⟩ := hk
    rw [← h.judge_settled r hr rest, Logging.judge, settled]
    cases hv : l.verdicts.lookup (r.logger, r.level) with
    | some verdict =>
      simp only [hv]
      rfl
    | none =>
      simp only [List.lookup_cons_self]
      rfl
  · have hne : ((logger, n) == (r.logger, r.level)) = false :=
      beq_eq_false_iff_ne.2 fun he => hk ⟨(Prod.mk.inj he).1.symm, (Prod.mk.inj he).2.symm⟩
    rw [settled, settled, Logging.asOf, if_neg hk, Logging.log]
    suffices hv : (l.judge r.logger r.level).1.verdicts.lookup (logger, n) = l.verdicts.lookup (logger, n) by
      rw [hv]
    rw [Logging.judge]
    cases l.verdicts.lookup (r.logger, r.level) with
    | some verdict => rfl
    | none => exact (List.lookup_cons ..).trans (by rw [hne])

/-- Each record is written to the one destination or not at all. -/
theorem Configured.deliver (h : Configured l stream level) {records : List Record}
    (hr : ∀ r ∈ records, 0 < r.level) :
    l.deliver records =
      (records.filter fun r => l.settled level records r.logger r.level).map fun r => (stream, r) := by
  -- on the records that are left; what is settled for them does not change over the ones before
  induction records generalizing l with
  | nil => rfl
  | cons r rest ih =>
    have hp := hr r List.mem_cons_self
    have hj := h.judge r.logger r.level
    have hrest := ih hj fun r hm => hr r (List.mem_cons_of_mem _ hm)
    simp only [h.settled_judge r hp rest] at hrest
    rw [Logging.deliver, Logging.log]
    simp only [h.judge_settled r hp rest, hj.destinations, hrest]
    cases hs : l.settled level (r :: rest) r.logger r.level with
    | true => simp [hs]
    | false => simp [hs]

private theorem configured_verdicts (l : Logging) {calls : List (Int × Nat)} (hc : calls ≠ []) :
    (l.configured calls).verdicts = [] := by
  rw [Logging.configured, ← List.dropLast_concat_getLast hc, List.foldl_append]
  rfl

private theorem received_map (stream other : Nat) (records : List Record) :
    received other (records.map fun r => (stream, r)) = if stream = other then records else [] := by
  have hall : ∀ w ∈ records.map fun r => (stream, r), w.1 = stream := by
    intro w hw
    obtain ⟨r, -, rfl⟩ := List.mem_map.1 hw
    rfl
  rw [received]
  split
  case isTrue h =>
    rw [List.filter_eq_self.2 fun w hw => decide_eq_true ((hall w hw).trans h), List.map_map]
    exact List.map_id' records
  case isFalse h =>
    rw [List.filter_eq_nil_iff.2 fun w hw => by rw [hall w hw]; simpa using h]
    rfl

/-- However often logging is configured, records go to the first stream, each once at most and in order. Those
of the library's own loggers are written from the level on that was configured last, where zero stands for the
level of a warning, and those of all others from the level of a warning on. Among the others are those of its own
from which its logger is missed; two dots stand side by side behind the library's name in all of these. -/
theorem configured_once (hl : Bare l) {calls : List (Int × Nat)} (hc : calls ≠ [])
    (hs : (calls.map Prod.snd).Nodup) {records : List Record} (hr : ∀ r ∈ records, 1 ≤ r.level) :
    let first := (calls.head hc).2
    let last := (calls.getLast hc).1
    let loggers := l.configured calls
    let heard := records.filter fun r =>
      (if Own r.logger ∧ ¬ Missed (loggers.asOf r.logger r.level records) r.logger ∧ last ≠ 0 then last
        else Level.warning) ≤ r.level
    let written := loggers.deliver records
    written = heard.map (fun r => (first, r)) ∧ received first written = heard ∧
      (∀ stream ∈ (calls.map Prod.snd).tail, received stream written = []) ∧
      ∀ r ∈ records, Missed (loggers.asOf r.logger r.level records) r.logger → Hollow r.logger := by
  intro first last loggers heard written
  have hconf : Configured loggers first last := hl.configured hc
  have hw : written = heard.map fun r => (first, r) := by
    have hd := hconf.deliver hr
    simp only [settled, loggers, configured_verdicts l hc] at hd
    exact hd
  refine ⟨hw, ?_, fun stream hm => ?_, fun r _ => hollow_of_missed (hconf.asOf r.logger r.level records).known⟩
  · rw [hw, received_map, if_pos rfl]
  · obtain ⟨call, later, rfl⟩ := List.exists_cons_of_ne_nil hc
    have hne : first ≠ stream := by
      rintro rfl
      exact (List.nodup_cons.1 hs).1 hm
    rw [hw, received_map, if_neg hne]

def thrice : List (Int × Nat) := [(40, 0), (0, 1), (20, 2)]

def murmurs : List Record :=
  [⟨19, "kemkit", "a"⟩, ⟨20, "kemkit.core.spi", "b"⟩, ⟨29, "kemkitx", "c"⟩, ⟨30, "", "d"⟩,
    ⟨29, "kemkit..x", "e"⟩, ⟨20, "kemkit.core.spi", "b"⟩]

theorem configured_once_thrice :
    let written := (configured {} thrice).deliver murmurs
    Bare {} ∧ (thrice.map Prod.snd).Nodup ∧ (∀ r ∈ murmurs, 1 ≤ r.level) ∧
      received 0 written = [⟨20, "kemkit.core.spi", "b"⟩, ⟨30, "", "d"⟩, ⟨20, "kemkit.core.spi", "b"⟩] ∧
      received 1 written = [] ∧ received 2 written = [] := by
  intro written
  have hs : (thrice.map Prod.snd).Nodup := by decide
  have hr : ∀ r ∈ murmurs, 1 ≤ r.level := by decide
  obtain ⟨-, hfirst, hlater, -⟩ := configured_once bare_initial (List.cons_ne_nil _ _ : thrice ≠ []) hs hr
  exact ⟨bare_initial, hs, hr, hfirst.trans (by decide +kernel), hlater 1 (by decide), hlater 2 (by decide)⟩

/-- Below a name with an empty part the library's level is missed, as no logger stands at the first dot. Once
there is one with the empty part itself it is found. -/
theorem empty_part_unheard :
    let r : Record := ⟨20, "kemkit..x", "a"⟩
    Own r.logger ∧ (10 : Int) ≤ r.level ∧ streams "TIME" [10] [r] = [[]] ∧
      streams "TIME" [10] [⟨20, "kemkit.", "b"⟩, r] =
        [["[TIME] INFO kemkit.: b", "[TIME] INFO kemkit..x: a"]] := by
  decide +kernel

end KeyCapsule.Logging
