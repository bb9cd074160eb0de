import Mathlib.Data.Set.Function
import KeyCapsule.Proofs.Suite

/-! Written public keys. A suite reads them through a library that may know several forms of a point; the
suite looks at the mark first, so that every key has exactly one form that is read. -/
namespace KeyCapsule

structure KeyReader where
  point? : PrimeCurve → Bytes → Option PublicKey
  coordinate? : Ladder → Bytes → Option PublicKey

namespace KeyReader

/-- A library that reads uncompressed points and raw coordinates as they are written. Nothing is said of
points behind any other mark. -/
structure Faithful (r : KeyReader) : Prop where
  uncompressed : ∀ c rest, r.point? c (4 :: rest) = (Group.prime c).decode? (4 :: rest)
  verbatim : ∀ l data, r.coordinate? l data = (Group.ladder l).decode? data

def answer : Option PublicKey → Except Fault PublicKey
  | some k => .ok k
  | none => .error Fault.badValue

def readPublic (r : KeyReader) (rule : KeyRule) (data : Datum) : Except Fault PublicKey := do
  match rule with
  | .sampled c =>
    KeyRule.checkMark data
    answer (r.point? c (← KeyRule.keyBytes data))
  | .expanded l => answer (r.coordinate? l (← KeyRule.keyBytes data))
  | .detached => answer (r.coordinate? .x448 (← KeyRule.keyBytes data))

end KeyReader

private theorem KeyRule.decode_eq_answer (g : Group) (data : Datum) :
    decode g data = keyBytes data >>= fun b => KeyReader.answer (g.decode? b) := by
  cases hb : keyBytes data with
  | error e => simp only [decode, hb, bind, Except.bind]
  | ok b =>
    simp only [decode, hb, bind, Except.bind]
    cases g.decode? b <;> rfl

private theorem KeyRule.keyBytes_eq_ok {data : Datum} {b : Bytes} (h : keyBytes data = .ok b) :
    data = .bytes b := by
  cases data with
  | bytes b' =>
    cases h
    rfl
  | _ => cases h

/-- Behind the mark of an uncompressed point a faithful library has no choice, so the rule reads through
it what it reads on its own. -/
private theorem KeyReader.Faithful.readPublic_eq {r : KeyReader} (h : r.Faithful) (rule : KeyRule)
    (data : Datum) : r.readPublic rule data = rule.readPublic data := by
  cases rule with
  | expanded l => simp only [readPublic, KeyRule.readPublic, KeyRule.decode_eq_answer, h.verbatim]
  | detached => simp only [readPublic, KeyRule.readPublic, KeyRule.decode_eq_answer, h.verbatim]
  | sampled c =>
    simp only [readPublic, KeyRule.readPublic, KeyRule.decode_eq_answer]
    cases hm : KeyRule.checkMark data with
    | error e => rfl
    | ok _ =>
      cases hb : KeyRule.keyBytes data with
      | error e => rfl
      | ok b =>
        obtain rfl := KeyRule.keyBytes_eq_ok hb
        cases b with
        | nil => cases hm
        | cons mark rest =>
          rw [KeyRule.checkMark_cons] at hm
          split at hm
          case isTrue hmark =>
            subst hmark
            simp only [bind, Except.bind, h.uncompressed]
          case isFalse => cases hm

namespace Group

/-- The ways in which bytes fail to be a public key of a group. Compressed and hybrid points, the point at
infinity and the empty string lack the mark; what is cut short or goes on too long has another size. -/
inductive Spoiled : Group → Bytes → Prop
  | unmarked {c : PrimeCurve} {data : Bytes} (h : data.head? ≠ some 4) : Spoiled (.prime c) data
  | misfit {g : Group} {data : Bytes} (h : data.length ≠ g.encodedSize) : Spoiled g data
  | unreduced {c : PrimeCurve} {x y : Bytes} (hx : x.length = c.width) (hy : y.length = c.width)
      (h : c.modulus ≤ Bytes.toNatBE x ∨ c.modulus ≤ Bytes.toNatBE y) :
      Spoiled (.prime c) (4 :: (x ++ y))
  | offCurve {c : PrimeCurve} {x y : Bytes} (hx : x.length = c.width) (hy : y.length = c.width)
      (h : ¬ c.holds (Bytes.toNatBE x) (Bytes.toNatBE y)) : Spoiled (.prime c) (4 :: (x ++ y))

end Group

namespace PrimeCurve
variable {c : PrimeCurve}

private theorem point?_eq_none_iff {x y : Nat} :
    c.point? x y = none ↔ c.modulus ≤ x ∨ c.modulus ≤ y ∨ ¬ c.holds x y := by
  unfold point?
  split
  case isTrue h =>
    obtain ⟨hx, hy, hc⟩ := h
    simp only [reduceCtorEq, false_iff, not_or, Nat.not_le, not_not]
    exact ⟨hx, hy, hc⟩
  case isFalse h =>
    simp only [true_iff]
    by_contra hn
    simp only [not_or, Nat.not_le, not_not] at hn
    exact h hn

private theorem decode?_fields {x y : Bytes} (hx : x.length = c.width) (hy : y.length = c.width) :
    c.decode? (4 :: (x ++ y)) = c.point? (Bytes.toNatBE x) (Bytes.toNatBE y) := by
  have hl : (x ++ y).length = 2 * c.width := by
    rw [List.length_append, hx, hy, Nat.two_mul]
  rw [decode?, if_pos ⟨rfl, hl⟩, List.take_left' hx, List.drop_left' hx]

private theorem exists_fields {rest : Bytes} (h : rest.length = 2 * c.width) :
    ∃ x y : Bytes, x.length = c.width ∧ y.length = c.width ∧ rest = x ++ y := by
  refine ⟨rest.take c.width, rest.drop c.width, ?_, ?_, (List.take_append_drop _ _).symm⟩
  · rw [List.length_take]
    omega
  · rw [List.length_drop]
    omega

private theorem decode?_eq_none_iff {data : Bytes} :
    c.decode? data = none ↔ Group.Spoiled (.prime c) data := by
  constructor
  · intro h
    rcases data with - | ⟨mark, rest⟩
    · exact .unmarked (by simp)
    by_cases hm : mark = 4
    · subst hm
      by_cases hl : rest.length = 2 * c.width
      · obtain ⟨x, y, hx, hy, rfl⟩ := exists_fields hl
        rw [decode?_fields hx hy, point?_eq_none_iff, ← or_assoc] at h
        rcases h with h | h
        · exact .unreduced hx hy h
        · exact .offCurve hx hy h
      · refine .misfit fun he => hl ?_
        rw [List.length_cons, Group.encodedSize, encodedSize] at he
        omega
    · exact .unmarked (by simpa using hm)
  · intro h
    cases h with
    | unmarked h =>
      refine Option.eq_none_iff_forall_ne_some.2 fun q hq => h ?_
      rw [← encode_of_decode? hq]
      rfl
    | misfit h =>
      refine Option.eq_none_iff_forall_ne_some.2 fun q hq => h ?_
      rw [← encode_of_decode? hq]
      exact q.length_encode
    | unreduced hx hy h =>
      rw [decode?_fields hx hy, point?_eq_none_iff, ← or_assoc]
      exact .inl h
    | offCurve hx hy h =>
      rw [decode?_fields hx hy, point?_eq_none_iff, ← or_assoc]
      exact .inr h

end PrimeCurve

namespace Group

/-- What is refused is spoiled, and nothing else is. -/
private theorem decode?_eq_none_iff {g : Group} {data : Bytes} : g.decode? data = none ↔ g.Spoiled data := by
  cases g with
  | prime c => rw [decode?, Option.map_eq_none_iff, PrimeCurve.decode?_eq_none_iff]
  | ladder l =>
    rw [decode?, dite_eq_right_iff]
    constructor
    · exact fun h => .misfit fun hl => Option.some_ne_none _ (h hl)
    · rintro (- | hl) h
      exact absurd h hl

end Group

namespace Suite

private theorem ofGroup_injective {g h : Group} (he : ofGroup g = ofGroup h) : g = h := by
  have hk := congrArg Suite.kemId he
  revert g h
  decide

private theorem suiteOf_eq_ok {g : Group} {k : PublicKey} :
    DhKem.suiteOf (.publicKey k) = .ok (ofGroup g) ↔ k.group = g := by
  rw [DhKem.suiteOf, Except.ok.injEq]
  exact ⟨ofGroup_injective, congrArg ofGroup⟩

private theorem readPublic_eq_ok {g : Group} {data : Bytes} {k : PublicKey} :
    (ofGroup g).readPublic data = .ok k ↔ g.decode? data = some k := by
  have h := readPublic_ofGroup g data
  cases hd : g.decode? data with
  | some k' =>
    rw [hd] at h
    rw [h, Except.ok.injEq, Option.some.injEq]
  | none =>
    rw [hd] at h
    obtain ⟨e, he, -⟩ := h
    simp [he]

private theorem exists_readPublic_eq_error {g : Group} {data : Bytes} :
    (∃ e, (ofGroup g).readPublic data = .error e) ↔ g.Spoiled data := by
  have h := readPublic_ofGroup g data
  rw [← Group.decode?_eq_none_iff]
  cases hd : g.decode? data with
  | some k =>
    rw [hd] at h
    simp [h]
  | none =>
    rw [hd] at h
    obtain ⟨e, he, -⟩ := h
    exact iff_of_true ⟨e, he⟩ rfl

private theorem kind_of_readPublic {g : Group} {data : Bytes} {e : Fault}
    (h : (ofGroup g).readPublic data = .error e) : e.isA .value = true := by
  have hr := readPublic_ofGroup g data
  cases hd : g.decode? data with
  | some k =>
    rw [hd] at hr
    cases hr.symm.trans h
  | none =>
    rw [hd] at hr
    obtain ⟨e', he', hv⟩ := hr
    cases he'.symm.trans h
    exact hv

/-- Reading is the inverse of writing. What is read are the written forms of the suite's keys, each key
has one of them, and all other bytes are refused values. -/
structure Canonical (g : Group) (read : Bytes → Except Fault PublicKey) : Prop where
  accepted : ∀ data k, read data = .ok k →
    (data.length : Int) = (ofGroup g).encapsulationSize ∧
      DhKem.suiteOf (.publicKey k) = .ok (ofGroup g) ∧ k.serialize = data
  refused : ∀ data e, read data = .error e → e.isA .value = true
  written : ∀ k, DhKem.suiteOf (.publicKey k) = .ok (ofGroup g) → read k.serialize = .ok k
  bijective : Set.BijOn PublicKey.serialize
    { k | DhKem.suiteOf (.publicKey k) = .ok (ofGroup g) } { data | ∃ k, read data = .ok k }
  spoiled : ∀ data, (∃ e, read data = .error e) ↔ g.Spoiled data

private theorem accepted_of_readPublic {g : Group} {data : Bytes} {k : PublicKey}
    (h : (ofGroup g).readPublic data = .ok k) :
    (data.length : Int) = (ofGroup g).encapsulationSize ∧ k.group = g ∧ k.serialize = data := by
  obtain ⟨hg, hs⟩ := PublicKey.of_decode? (readPublic_eq_ok.1 h)
  refine ⟨?_, hg, hs⟩
  rw [encapsulationSize_ofGroup, ← hs, k.length_serialize, hg]

private theorem readPublic_serialize {g : Group} {k : PublicKey} (h : k.group = g) :
    (ofGroup g).readPublic k.serialize = .ok k := by
  subst h
  exact readPublic_eq_ok.2 k.decode?_serialize

private theorem canonical_readPublic (g : Group) : Canonical g fun data => (ofGroup g).readPublic data where
  accepted data k h := by
    obtain ⟨hl, hg, hs⟩ := accepted_of_readPublic h
    exact ⟨hl, suiteOf_eq_ok.2 hg, hs⟩
  refused _ _ h := kind_of_readPublic h
  written _ h := readPublic_serialize (suiteOf_eq_ok.1 h)
  bijective := by
    refine ⟨?_, ?_, ?_⟩
    · intro k hk
      exact ⟨k, readPublic_serialize (suiteOf_eq_ok.1 hk)⟩
    · -- two keys with one written form are what reading that form gives
      intro k hk k' hk' he
      have h := readPublic_serialize (suiteOf_eq_ok.1 hk)
      rw [he, readPublic_serialize (suiteOf_eq_ok.1 hk')] at h
      exact (Except.ok.inj h).symm
    · rintro data ⟨k, hk⟩
      obtain ⟨-, hg, hs⟩ := accepted_of_readPublic hk
      exact ⟨k, suiteOf_eq_ok.2 hg, hs⟩
  spoiled _ := exists_readPublic_eq_error

end Suite

/-- The encoding of public keys is canonical for every suite, whatever the library that reads for it makes
of points in another form. -/
theorem public_encoding_canonical (r : KeyReader) (h : r.Faithful) (g : Group) :
    (∀ data, r.readPublic (Suite.ofGroup g).keys data = (Suite.ofGroup g).readPublic data) ∧
      Suite.Canonical g fun data => r.readPublic (Suite.ofGroup g).keys (.bytes data) := by
  have hr : ∀ data, r.readPublic (Suite.ofGroup g).keys data = (Suite.ofGroup g).readPublic data :=
    fun data => h.readPublic_eq _ data
  refine ⟨hr, ?_⟩
  simp only [hr]
  exact Suite.canonical_readPublic g

namespace PrimeCurve

/-- The point with a first coordinate whose second one is odd or even. The modulus is three more than a
multiple of four, so one power is a square root if there is any. -/
def lift? (c : PrimeCurve) (odd : Bool) (x : Nat) : Option c.Point :=
  let square := (x * x * x + (c.modulus - 3) * x + c.constant) % c.modulus
  let root := power c.modulus square ((c.modulus + 1) / 4) (c.modulus.log2 + 1) 1
  c.point? x (if root.testBit 0 = odd then root else c.modulus - root)

def decodeEither? (c : PrimeCurve) : Bytes → Option c.Point
  | 2 :: x => if x.length = c.width then c.lift? false (Bytes.toNatBE x) else none
  | 3 :: x => if x.length = c.width then c.lift? true (Bytes.toNatBE x) else none
  | data => c.decode? data

end PrimeCurve

def KeyReader.lenient : KeyReader where
  point? c data := (c.decodeEither? data).map (.point c)
  coordinate? l data := (Group.ladder l).decode? data

private theorem KeyReader.faithful_lenient : lenient.Faithful where
  uncompressed _ _ := rfl
  verbatim _ _ := rfl

/-- The generator of the first curve is read by the library in both forms, by the suite in one. -/
theorem public_encoding_canonical_compressed :
    let key := PublicKey.point .p256 (PrimeCurve.generator .p256)
    let compressed : Bytes := 3 :: Bytes.ofNatBE 32 (PrimeCurve.generator .p256).x
    KeyReader.lenient.Faithful ∧
      KeyReader.lenient.point? .p256 compressed = some key ∧
      KeyReader.lenient.point? .p256 key.serialize = some key ∧
      Suite.p256.readPublic key.serialize = .ok key ∧
      ∃ e, Suite.p256.readPublic compressed = .error e ∧ e.isA .value = true := by
  intro key compressed
  obtain ⟨hr, hc⟩ := public_encoding_canonical .lenient KeyReader.faithful_lenient (.prime .p256)
  have written := hc.written key rfl
  obtain ⟨e, refused⟩ := (hc.spoiled compressed).2 (.unmarked (by decide))
  have kind := hc.refused _ _ refused
  refine ⟨KeyReader.faithful_lenient, by decide +kernel, by decide +kernel, ?_, e, ?_, kind⟩
  · exact (hr _).symm.trans written
  · exact (hr _).symm.trans refused

end KeyCapsule
