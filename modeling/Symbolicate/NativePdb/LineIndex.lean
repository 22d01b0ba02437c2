import Symbolicate.SourceLocation

/-!
# Line index of managed methods

The lines of each method of a native debug file, by the method's token, and the look-up of an offset into a method. Code
that has no source carries a marker instead of a line number; a look-up that meets a marker moves on to the next
statement, a fixed distance at a time and only so often.
-/

namespace Symbolicate.NativePdb

/-- A line and the code it covers: `length` bytes from `offset` on, or only the offset itself. -/
structure LineRecord where
  offset : Nat
  length : Option Nat
  line : Nat
  file : Option String
  deriving DecidableEq, Repr

def LineRecord.covers (r : LineRecord) (address : Nat) : Bool :=
  match r.length with
  | some length => r.offset ≤ address && address < r.offset + length
  | none => r.offset == address

/-- A method: where its code starts, and its lines. -/
structure ManagedMethod where
  offset : Nat
  lines : List LineRecord
  deriving DecidableEq, Repr

/-- The first line that covers an address, else the last one that starts at it or before. -/
def ManagedMethod.lineAt? (m : ManagedMethod) (address : Nat) : Option LineRecord :=
  match m.lines.find? (·.covers address) with
  | some r => some r
  | none => m.lines.reverse.find? (·.offset ≤ address)

/-- The methods of a file by their tokens, each token once. -/
structure LineIndex where
  methods : List (UInt32 × ManagedMethod)

namespace LineIndex

def empty : LineIndex := ⟨[]⟩

/-- The index with a method, in place of one with the same token. -/
def insert (i : LineIndex) (token : UInt32) (m : ManagedMethod) : LineIndex :=
  ⟨i.methods.filter (·.1 != token) ++ [(token, m)]⟩

def method? (i : LineIndex) (token : UInt32) : Option ManagedMethod :=
  (i.methods.find? (·.1 == token)).map (·.2)

def size (i : LineIndex) : Nat := i.methods.length

/-! ## Look-ups -/

/-- Whether a line number marks code without a source: hidden code, or code to be stepped through. -/
def marksNoSource (line : Nat) : Bool := line == 0xfeefee || line == 0xf00f00

/-- How far a look-up moves on from a marker. -/
def retryDistance : Nat := 32

/-- How many places a look-up tries: one, and eight more. -/
def attempts : Nat := 9

/-- The line at an offset into a method. Addresses have 32 bits. -/
def lineAt? (i : LineIndex) (token : UInt32) (offset : Nat) : Option LineRecord :=
  match i.method? token with
  | some m => if m.offset + offset < 0x100000000 then m.lineAt? (m.offset + offset) else none
  | none => none

/-- The location of the first line that is no marker, among so many places from `offset` on. A place without a line
ends the search. -/
def resolve (lineAt? : Nat → Option LineRecord) : Nat → Nat → Option SourceLocation
  | 0, _ => none
  | tries + 1, offset =>
    match lineAt? offset with
    | none => none
    | some r =>
      if marksNoSource r.line then
        if offset + retryDistance < 0x100000000 then resolve lineAt? tries (offset + retryDistance) else none
      else SourceLocation.of? r.file (UInt32.ofNat r.line)

/-- The source location of an offset into the method with a token. -/
def sourceLocation (i : LineIndex) : SourceLookup := fun token offset =>
  resolve (i.lineAt? token) attempts offset.toNat

end LineIndex

end Symbolicate.NativePdb
