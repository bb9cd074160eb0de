import KeyCapsule.Digest
import KeyCapsule.Source

/-! Sources whose answers are settled beforehand: by a seed, by a finite stream, or by one rule for
every request. Those that move on keep their place in a cell of the state. -/
namespace KeyCapsule.Source

variable {σ : Type}

/-- A request must be for a whole number of bytes; a negative number asks for none. -/
def count (wanted : Datum) : Except Fault Nat :=
  match wanted.integer? with
  | some n => Datum.repetitions n
  | none => .error Fault.typeMismatch

def ofRule (rule : Nat → Datum) : Source σ where
  draw wanted := do
    let n ← count wanted
    return rule n

def constant (value : Datum) : Source σ where
  draw wanted := do
    let b ← value.byte
    (ofRule fun n => .bytes (List.replicate n b)).draw wanted

def buffered (value : Datum) : Source σ where
  draw wanted := do
    let b ← value.byte
    (ofRule fun n => .buffer (List.replicate n b)).draw wanted

def listed (value : Datum) : Source σ := ofRule fun n => .list (List.replicate n value)

def offset (delta : Datum) : Source σ where
  draw wanted := do
    match wanted.integer?, delta.integer? with
    | some n, some d => (ofRule fun n => .bytes (List.replicate n 0x5a)).draw (.int (n + d))
    | _, _ => throw Fault.typeMismatch

def cycling (values : List Datum) (place : Cell σ Nat) : Source σ where
  draw wanted := do
    let i ← place.read
    match values[i % values.length]? with
    | none => throw (.primitive .zeroDivision "integer modulo by zero")
    | some value =>
      place.write (i + 1)
      (constant value).draw wanted

def contents : Datum → Except Fault Bytes
  | .none => .ok []
  | other => other.joinable

/-- How many of the bytes that are left a request takes. An absent or negative limit is none. -/
def taken (left : Nat) (wanted : Datum) : Except Fault Nat :=
  match wanted.bound with
  | .error e => .error e
  | .ok none => .ok left
  | .ok (some n) =>
    if !Datum.isWord n then .error Fault.outOfWord
    else .ok (if n < 0 then left else min n.toNat left)

def stream (data : Bytes) (place : Cell σ Nat) : Source σ where
  draw wanted := do
    let first ← place.read
    let left := data.drop first
    let n ← taken left.length wanted
    place.write (first + n)
    return .bytes (left.take n)

def numbered (seed : Bytes) : Nat → Nat → Bytes
  | 0, _ => []
  | blocks + 1, number =>
    Digest.sha256.hash (seed ++ Bytes.ofNatBE 8 number) ++ numbered seed blocks (number + 1)

def beyond : Nat := 0x10000000000000000

def firstBlock (n : Int) : Nat := if n < 0 then beyond else n.toNat

/-- How many blocks hold so many bytes. Blocks are counted out for a fraction too, though its bytes
cannot be. -/
def blocksFor (wanted : Datum) : Except Fault Nat :=
  match wanted with
  | .real x => .ok (((x.ceiling + 31) / 32).toNat)
  | other => (count other).map fun n => (n + 31) / 32

/-- Whole blocks are made and what is left of the last is dropped. Blocks that were made are gone, even
if the bytes cannot be handed out. -/
def generator (seed : Bytes) (place : Cell σ Nat) : Source σ where
  draw wanted := do
    let blocks ← blocksFor wanted
    let number ← place.read
    if blocks ≠ 0 ∧ beyond < number + blocks then
      place.write beyond
      throw Fault.outOfWord
    place.write (number + blocks)
    let n ← count wanted
    return .bytes ((numbered seed blocks number).take n)

def unnumbered : Source σ where
  draw wanted := do
    let blocks ← blocksFor wanted
    if blocks ≠ 0 then throw Fault.noAttribute
    let _ ← count wanted
    return .bytes []

def failing (text : String) : Source σ where
  draw _ := throw (.raised .rngFailure text)

def strict (s : Source σ) : Source σ where
  draw wanted := do
    match wanted.integer? with
    | some n =>
      let _ ← Datum.newLength n
      s.draw wanted
    | none => throw Fault.typeMismatch

end KeyCapsule.Source
