import KeyCapsule.Fault

/-! Comparison of values. Numbers compare by exact value across their kinds, texts and byte strings
among themselves; unlike kinds are never equal and have no order. -/
namespace KeyCapsule

namespace Binary64

def less (x y : Binary64) : Bool :=
  match x.extended?, y.extended? with
  | some a, some b => a.lt b
  | _, _ => false

/-- What is not a number equals nothing, itself included. -/
def same (x y : Binary64) : Bool :=
  match x.extended?, y.extended? with
  | some a, some b => a == b
  | _, _ => false

end Binary64

namespace Datum

def textLess : List Char → List Char → Bool
  | _, [] => false
  | [], _ :: _ => true
  | a :: as, b :: bs => a.toNat < b.toNat || (a == b && textLess as bs)

def bytesLess : Bytes → Bytes → Bool
  | _, [] => false
  | [], _ :: _ => true
  | a :: as, b :: bs => a < b || (a == b && bytesLess as bs)

mutual
def equals : Datum → Datum → Bool
  | none, none => true
  | text a, text b => a == b
  | list a, list b => equalItems a b
  | a, b =>
    match a.bytesLike?, b.bytesLike? with
    | some x, some y => x == y
    | _, _ =>
      match a.integer?, b.integer? with
      | some m, some n => m == n
      | _, _ =>
        match a.number?, b.number? with
        | some x, some y => x.same y
        | _, _ => false

def equalItems : List Datum → List Datum → Bool
  | [], [] => true
  | a :: as, b :: bs => equals a b && equalItems as bs
  | _, _ => false
end

mutual
def less : Datum → Datum → Except Fault Bool
  | text a, text b => .ok (textLess a.toList b.toList)
  | list a, list b => lessItems a b
  | a, b =>
    match a.bytesLike?, b.bytesLike? with
    | some x, some y => .ok (bytesLess x y)
    | _, _ =>
      match a.integer?, b.integer? with
      | some m, some n => .ok (m < n)
      | _, _ =>
        match a.number?, b.number? with
        | some x, some y => .ok (x.less y)
        | _, _ => .error Fault.typeMismatch

def lessItems : List Datum → List Datum → Except Fault Bool
  | _, [] => .ok false
  | [], _ :: _ => .ok true
  | a :: as, b :: bs => if equals a b then lessItems as bs else less a b
end

/-- Not above: for numbers this is false when either is not a number. -/
def atMost (a b : Datum) : Except Fault Bool :=
  if a.equals b then .ok true else a.less b

def plus (x : Datum) (n : Int) : Except Fault Datum :=
  match x with
  | real r => .ok (real (r.plus n))
  | other => match other.integer? with
    | some m => .ok (int (m + n))
    | Option.none => .error Fault.typeMismatch

def whole : Datum → Int
  | real r => r.truncate
  | other => other.integer?.getD 0

@[simp] theorem less_int (m n : Int) : (int m).less (int n) = .ok (decide (m < n)) := by
  simp [less, bytesLike?, integer?]

@[simp] theorem equals_int (m n : Int) : (int m).equals (int n) = (m == n) := by
  simp [equals, bytesLike?, integer?]

@[simp] theorem equals_text (a b : String) : (text a).equals (text b) = (a == b) := by
  simp [equals]

@[simp] theorem equals_bytes (a b : Bytes) : (bytes a).equals (bytes b) = (a == b) := by
  simp [equals, bytesLike?]

end Datum

end KeyCapsule
