import KeyCapsule.Binary64
import KeyCapsule.Text.Quoted
import KeyCapsule.Text.Reading

/-! What a caller may hand in where a size, a window bound, a label or a byte string is expected:
values of any kind, with the names of their kinds and their two written forms. A value that holds an
integer of too many digits has no written form; what `quoted` makes of it stands for none. -/
namespace KeyCapsule

inductive Extent
  | unmeasured
  | known (length : Nat)
  /-- It has a length, but what tells it was taken away. -/
  | lost
  deriving DecidableEq

inductive Datum
  | none
  | bool (b : Bool)
  | int (n : Int)
  | real (x : Binary64)
  | text (s : String)
  | bytes (b : Bytes)
  | buffer (b : Bytes)
  | list (items : List Datum)
  /-- An object that is no value: of it only the type and the length matter. -/
  | object (type : String) (extent : Extent)

instance : Inhabited Datum := ⟨.none⟩
instance : Coe Bytes Datum := ⟨.bytes⟩
instance : Coe String Datum := ⟨.text⟩
instance : Coe Int Datum := ⟨.int⟩

namespace Datum

def typeName : Datum → String
  | none => "NoneType"
  | bool _ => "bool"
  | int _ => "int"
  | real _ => "float"
  | text _ => "str"
  | bytes _ => "bytes"
  | buffer _ => "bytearray"
  | list _ => "list"
  | object type _ => type

mutual
def quoted : Datum → String
  | none => "None"
  | bool b => if b then "True" else "False"
  | int n => toString n
  | real x => x.text
  | text s => Text.quoted s
  | bytes b => Text.quotedBytes b
  | buffer b => Text.quotedBuffer b
  | list items => "[" ++ ", ".intercalate (quotedItems items) ++ "]"
  | object type _ => "<" ++ type ++ ">"

def quotedItems : List Datum → List String
  | [] => []
  | x :: rest => quoted x :: quotedItems rest
end

def plain : Datum → String
  | text s => s
  | other => other.quoted

mutual
/-- Whether a value has a written form. -/
def writable : Datum → Bool
  | int n => n.natAbs < Text.digitBound
  | list items => writableItems items
  | _ => true

def writableItems : List Datum → Bool
  | [] => true
  | x :: rest => writable x && writableItems rest
end

def isEmpty : Datum → Bool
  | none => true
  | bool b => !b
  | int n => n == 0
  | real x => x.isZero
  | text s => s.isEmpty
  | bytes b => b.isEmpty
  | buffer b => b.isEmpty
  | list items => items.isEmpty
  | object _ extent => extent = .known 0

/-- Truth values count as the integers zero and one. -/
def integer? : Datum → Option Int
  | bool b => some (if b then 1 else 0)
  | int n => some n
  | _ => Option.none

def bytesLike? : Datum → Option Bytes
  | bytes b => some b
  | buffer b => some b
  | _ => Option.none

def number? : Datum → Option Binary64
  | real x => some x
  | other => other.integer?.map fun n => .finite (Dyadic.ofInt n)

@[simp] theorem writable_int (n : Int) : (int n).writable = decide (n.natAbs < Text.digitBound) := by
  rw [writable]

theorem writable_small {n : Int} (h : n.natAbs < 0x10000) : (int n).writable = true := by
  rw [writable_int, decide_eq_true (Text.lt_digitBound h)]

@[simp] theorem writable_text (s : String) : (text s).writable = true := by
  rw [writable]
  all_goals simp

@[simp] theorem integer?_int (n : Int) : (int n).integer? = some n := rfl

end Datum

end KeyCapsule
