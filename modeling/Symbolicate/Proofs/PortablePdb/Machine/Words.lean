import Mathlib.Data.PFun
import Mathlib.Tactic.Common
import Symbolicate.PortablePdb.SequencePoint
import Symbolicate.Proofs.PortablePdb.SequencePoints

/-!
# Portable debug files on machine words

The readers of portable debug files work on numbers without end. On a machine they work on words: sizes and offsets
have 64 bits, signed differences 32 or 64, an index has to lie in its array and a cut in its slice, and nothing bounds
how often a loop runs. A computation of `Machine` stops without an answer as soon as one of these goes wrong, and in a
loop that does not end (`loop_eq`). Compressed numbers are read without ever stopping (`unsigned_eq`, `signed_eq`).

Memory is taken to be large enough for what is read.
-/

namespace Symbolicate.PortablePdb

/-- A computation that gives a value or a fault of the file, or stops without either. -/
abbrev Machine := ExceptT FormatError Option

namespace Machine

variable {α β : Type}

/-! ## Answers -/

/-- The end of a computation that went wrong. -/
def stop : Machine α := ExceptT.mk none

/-- A value or a fault. -/
def answer (x : Except FormatError α) : Machine α := ExceptT.mk (some x)

@[simp] theorem answer_ok (a : α) : answer (.ok a) = pure a := rfl

@[simp] theorem answer_error_bind (e : FormatError) (f : α → Machine β) :
    (answer (.error e) >>= f) = answer (.error e) := rfl

/-- Steps that give answers give one together. -/
theorem answer_bind (x : Except FormatError α) (f : α → Except FormatError β) :
    answer (x >>= f) = answer x >>= fun a => answer (f a) := by
  cases x <;> rfl

theorem answer_map (f : α → β) (x : Except FormatError α) : answer (x.map f) = answer x >>= fun a => pure (f a) := by
  cases x <;> rfl

/-- A computation agrees with one that cannot stop: both give the same fault, or both give values that `R` relates. -/
def Agrees (R : α → β → Prop) (x : Machine α) (y : Except FormatError β) : Prop :=
  (∃ e, x = answer (.error e) ∧ y = .error e) ∨ ∃ a b, x = pure a ∧ y = .ok b ∧ R a b

theorem Agrees.of_pure {R : α → β → Prop} {a : α} {b : β} (h : R a b) : Agrees R (pure a) (.ok b) :=
  .inr ⟨a, b, rfl, rfl, h⟩

theorem Agrees.of_error (R : α → β → Prop) (e : FormatError) : Agrees R (answer (.error e)) (.error e) :=
  .inl ⟨e, rfl, rfl⟩

/-- Steps that agree are computations that agree. -/
theorem Agrees.bind {γ δ : Type} {R : α → β → Prop} {S : γ → δ → Prop} {x : Machine α} {y : Except FormatError β}
    {f : α → Machine γ} {g : β → Except FormatError δ} (h : Agrees R x y)
    (hnext : ∀ a b, R a b → Agrees S (f a) (g b)) :
    Agrees S (x >>= f) (y >>= g) := by
  rcases h with ⟨e, rfl, rfl⟩ | ⟨a, b, rfl, rfl, hab⟩
  · exact .inl ⟨e, rfl, rfl⟩
  · rw [pure_bind]
    exact hnext a b hab

/-- A step that gives the same answer agrees, and what follows may use the answer. -/
theorem Agrees.bind_answer {γ δ : Type} {S : γ → δ → Prop} {y : Except FormatError β} {f : β → Machine γ}
    {g : β → Except FormatError δ} (hnext : ∀ b, y = .ok b → Agrees S (f b) (g b)) :
    Agrees S (answer y >>= f) (y >>= g) := by
  cases y with
  | error e => exact .inl ⟨e, rfl, rfl⟩
  | ok b =>
    rw [answer_ok, pure_bind]
    exact hnext b rfl

/-! ## Loops -/

section Loops

variable {σ : Type}

/-- What a round of a loop comes to: the end of the loop with a value or a fault, or what the next round starts with. -/
def outcome : Except FormatError (α ⊕ σ) → Except FormatError α ⊕ σ
  | .error e => .inl (.error e)
  | .ok (.inl a) => .inl (.ok a)
  | .ok (.inr s) => .inr s

/-- The rounds of a loop as a partial function. -/
def rounds (round : σ → Machine (α ⊕ σ)) : σ →. Except FormatError α ⊕ σ := fun s =>
  Part.ofOption ((round s).run.map outcome)

/-- A loop: rounds follow each other until one ends it. A loop that no round ends stops without an answer. -/
noncomputable def loop (round : σ → Machine (α ⊕ σ)) (s : σ) : Machine α :=
  open Classical in ExceptT.mk ((rounds round).fix s).toOption

variable {round : σ → Machine (α ⊕ σ)} {s s' : σ} {x : Except FormatError α}

theorem mem_rounds {r : Except FormatError (α ⊕ σ)} (h : round s = answer r) : outcome r ∈ rounds round s := by
  rw [rounds, h]
  exact Part.mem_some _

theorem loop_of_stop (h : round s = stop) : loop round s = stop := by
  have hnone : ∀ y, y ∉ rounds round s := fun y => by
    rw [rounds, h]
    exact Part.notMem_none y
  refine Option.eq_none_iff_forall_not_mem.2 fun x hx => ?_
  classical
  rcases PFun.mem_fix_iff.1 (Part.mem_toOption.1 hx) with hend | ⟨s', hnext, -⟩
  · exact hnone _ hend
  · exact hnone _ hnext

theorem loop_of_end (h : .inl x ∈ rounds round s) : loop round s = answer x := by
  classical
  exact Part.toOption_eq_some_iff.2 (PFun.fix_stop h)

theorem loop_of_next (h : .inr s' ∈ rounds round s) : loop round s = loop round s' := by
  rw [loop, loop, PFun.fix_fwd_eq h]

/-- **A loop is its first round and the loop from there.** -/
theorem loop_eq (round : σ → Machine (α ⊕ σ)) (s : σ) :
    loop round s = round s >>= Sum.elim pure (loop round) := by
  cases h : (round s).run with
  | none =>
    have hround : round s = stop := h
    rw [hround, loop_of_stop hround]
    rfl
  | some r =>
    have hround : round s = answer r := h
    have hmem := mem_rounds hround
    rw [hround]
    obtain e | a | s' := r
    · exact loop_of_end hmem
    · exact loop_of_end hmem
    · exact loop_of_next hmem

end Loops

/-! ## Operations that may stop -/

/-- A value that has to be there. -/
def defined : Option α → Machine α
  | some a => pure a
  | none => stop

@[simp] theorem defined_some (a : α) : defined (some a) = pure a := rfl

/-- An unsigned result of 64 bits. -/
def usize (n : Nat) : Machine Nat := if n < 0x10000000000000000 then pure n else stop

/-- A signed result of 32 bits. -/
def i32 (n : Int) : Machine Int := if -0x80000000 ≤ n ∧ n < 0x80000000 then pure n else stop

/-- A signed result of 64 bits. -/
def i64 (n : Int) : Machine Int := if -0x8000000000000000 ≤ n ∧ n < 0x8000000000000000 then pure n else stop

/-- The difference of unsigned numbers. -/
def minus (a b : Nat) : Machine Nat := if b ≤ a then pure (a - b) else stop

/-- A number of `bits` bits shifted to the left. -/
def shiftLeft (bits n k : Nat) : Machine Nat := if k < bits then pure (n <<< k) else stop

/-- A number of `bits` bits shifted to the right. -/
def shiftRight (bits n k : Nat) : Machine Nat := if k < bits then pure (n >>> k) else stop

/-- The element at an index. -/
def get (xs : List α) (i : Nat) : Machine α := defined xs[i]?

/-- The array with another element at an index. -/
def put (xs : List α) (i : Nat) (a : α) : Machine (List α) := if i < xs.length then pure (xs.set i a) else stop

/-- The slice behind its first `n` bytes. -/
def behind (b : Bytes) (n : Nat) : Machine Bytes := defined (Bytes.from? b n)

/-- The first `n` bytes of a slice, and those behind them. -/
def splitAt (b : Bytes) (n : Nat) : Machine (Bytes × Bytes) :=
  if n ≤ b.length then pure (b.take n, b.drop n) else stop

/-- The bytes of a slice from `start` to `stop`, if it has them. -/
def range? (b : Bytes) (start stop : Nat) : Option Bytes :=
  if start ≤ stop ∧ stop ≤ b.length then some ((b.drop start).take (stop - start)) else none

/-- The sum of sizes that are found one after the other, and of `start`. -/
def sumFrom (start : Nat) (size : α → Machine Nat) (xs : List α) : Machine Nat :=
  xs.foldlM (fun sum x => do usize (sum + (← size x))) start

theorem usize_of_lt {n : Nat} (h : n < 0x10000000000000000) : usize n = pure n := if_pos h

theorem i32_of_bounds {n : Int} (hl : -0x80000000 ≤ n) (hh : n < 0x80000000) : i32 n = pure n := if_pos ⟨hl, hh⟩

theorem i64_of_bounds {n : Int} (hl : -0x8000000000000000 ≤ n) (hh : n < 0x8000000000000000) : i64 n = pure n :=
  if_pos ⟨hl, hh⟩

theorem minus_of_le {a b : Nat} (h : b ≤ a) : minus a b = pure (a - b) := if_pos h

theorem shiftLeft_of_lt {bits k : Nat} (h : k < bits) (n : Nat) : shiftLeft bits n k = pure (n <<< k) := if_pos h

theorem shiftRight_of_lt {bits k : Nat} (h : k < bits) (n : Nat) : shiftRight bits n k = pure (n >>> k) :=
  if_pos h

theorem get_of_eq {xs : List α} {i : Nat} {a : α} (h : xs[i]? = some a) : get xs i = pure a := by
  rw [get, h, defined_some]

theorem behind_of_le {b : Bytes} {n : Nat} (h : n ≤ b.length) : behind b n = pure (b.drop n) := by
  rw [behind, Bytes.from?, if_pos h, defined_some]

theorem splitAt_of_le {b : Bytes} {n : Nat} (h : n ≤ b.length) : splitAt b n = pure (b.take n, b.drop n) := if_pos h

theorem range?_eq (b : Bytes) (start len : Nat) : range? b start (start + len) = Bytes.slice? b start len := by
  simp only [range?, Bytes.slice?, Nat.le_add_right, true_and, Nat.add_sub_cancel_left]

theorem sumFrom_eq {size : α → Machine Nat} {size' : α → Nat} {xs : List α} (h : ∀ x ∈ xs, size x = pure (size' x))
    {start : Nat} (hbound : start + Bytes.total (xs.map size') < 0x10000000000000000) :
    sumFrom start size xs = pure (start + Bytes.total (xs.map size')) := by
  induction xs generalizing start with
  | nil => rfl
  | cons x xs ih =>
    rw [List.forall_mem_cons] at h
    rw [List.map_cons, Bytes.total_cons] at hbound ⊢
    have hrest := @ih h.2 (start + size' x) (by omega)
    rw [sumFrom] at hrest
    rw [sumFrom, List.foldlM_cons, h.1, pure_bind, usize_of_lt (by omega), pure_bind, hrest, Nat.add_assoc]

/-- The sum of bounded sizes. -/
theorem total_le {bound : Nat} {sizes : List Nat} (h : ∀ size ∈ sizes, size ≤ bound) :
    Bytes.total sizes ≤ sizes.length * bound := by
  induction sizes with
  | nil => exact Nat.zero_le _
  | cons size sizes ih =>
    rw [List.forall_mem_cons] at h
    have hrest := ih h.2
    rw [Bytes.total_cons, List.length_cons, Nat.succ_mul]
    omega

/-! ## Numbers -/

/-- The little-endian number of four bytes at the start, and the bytes behind it. -/
def readU32 (b : Bytes) : Machine (Option (Nat × Bytes)) :=
  match Bytes.slice? b 0 4 with
  | none => return none
  | some bytes => do
    let b₀ ← get bytes 0
    let b₁ ← get bytes 1
    let b₂ ← get bytes 2
    let b₃ ← get bytes 3
    let rest ← behind b 4
    return some (Bytes.le [b₀, b₁, b₂, b₃], rest)

theorem readU32_eq (b : Bytes) : readU32 b = pure ((Bytes.u32? b 0).map (·, b.drop 4)) := by
  rcases b with _ | ⟨b₀, _ | ⟨b₁, _ | ⟨b₂, _ | ⟨b₃, rest⟩⟩⟩⟩
  all_goals simp [readU32, Bytes.u32?, Bytes.slice?, get, behind, Bytes.from?]

/-- How many bits of a byte are set in front of the first one that is not. -/
def leadingOnes (b : UInt8) : Nat := ((List.range 8).takeWhile fun i => b.toNat.testBit (7 - i)).length

/-- The value bits of a compressed number, their number, and the bytes behind them. -/
def bits (fault : FormatErrorKind) (data : Bytes) : Machine (Nat × Nat × Bytes) := do
  let first ← answer (require fault data.head?)
  match leadingOnes first with
  | 0 => return (first.toNat, 7, ← behind data 1)
  | 1 => do
    let bytes ← answer (require fault (Bytes.slice? data 0 2))
    let b₀ ← get bytes 0
    let b₁ ← get bytes 1
    return (Bytes.be [b₀, b₁] % 0x4000, 14, ← behind data 2)
  | 2 => do
    let bytes ← answer (require fault (Bytes.slice? data 0 4))
    let b₀ ← get bytes 0
    let b₁ ← get bytes 1
    let b₂ ← get bytes 2
    let b₃ ← get bytes 3
    return (Bytes.be [b₀, b₁, b₂, b₃] % 0x20000000, 29, ← behind data 4)
  | _ => throw (.plain fault)

def unsigned (data : Bytes) : Machine (Nat × Bytes) := do
  let (raw, _, rest) ← bits .invalidCompressedUnsigned data
  return (raw, rest)

def signed (data : Bytes) : Machine (Int × Bytes) := do
  let (raw, width, rest) ← bits .invalidCompressedSigned data
  let magnitude ← i32 (raw / 2 : Nat)
  if raw % 2 = 0 then return (magnitude, rest)
  else do
    let sign ← i32 (← shiftLeft 32 1 (← minus width 1) : Nat)
    return (← i32 (magnitude - sign), rest)

/-- The leading ones tell the forms of a compressed number apart. -/
theorem leadingOnes_eq (b : UInt8) : (b.toNat < 0x80 → leadingOnes b = 0) ∧
    (0x80 ≤ b.toNat → b.toNat < 0xC0 → leadingOnes b = 1) ∧
    (0xC0 ≤ b.toNat → b.toNat < 0xE0 → leadingOnes b = 2) ∧ (0xE0 ≤ b.toNat → 3 ≤ leadingOnes b) := by
  have h : ∀ n < 256, (n < 0x80 → leadingOnes (UInt8.ofNat n) = 0) ∧
      (0x80 ≤ n → n < 0xC0 → leadingOnes (UInt8.ofNat n) = 1) ∧
      (0xC0 ≤ n → n < 0xE0 → leadingOnes (UInt8.ofNat n) = 2) ∧
      (0xE0 ≤ n → 3 ≤ leadingOnes (UInt8.ofNat n)) := by
    decide +kernel
  have hb := h b.toNat b.toNat_lt
  rwa [UInt8.ofNat_toNat] at hb

/-- **The value bits of a compressed number are read without stopping.** -/
theorem bits_eq (fault : FormatErrorKind) (data : Bytes) :
    bits fault data = answer (require fault (Compressed.bits? data)) := by
  cases data with
  | nil => rfl
  | cons b rest =>
    obtain ⟨hshort, hmiddle, hlong, hnone⟩ := leadingOnes_eq b
    have hfirst : answer (require fault (b :: rest).head?) = pure b := rfl
    unfold bits Compressed.bits?
    rw [hfirst, pure_bind]
    dsimp only
    by_cases h₁ : b.toNat < 0x80
    · simp only [hshort h₁, h₁, if_true]
      rfl
    · rw [if_neg h₁]
      by_cases h₂ : b.toNat < 0xC0
      · simp only [hmiddle (by omega) h₂, h₂, if_true]
        rcases rest with _ | ⟨c, rest⟩
        · rfl
        · have hc := c.toNat_lt
          have hvalue : Bytes.be [b, c] % 0x4000 = (b.toNat - 0x80) * 0x100 + c.toNat := by
            simp only [Bytes.be, List.foldl_cons, List.foldl_nil]
            omega
          simp [Bytes.slice?, get, behind, Bytes.from?, hvalue]
      · rw [if_neg h₂]
        by_cases h₃ : b.toNat < 0xE0
        · simp only [hlong (by omega) h₃, h₃, if_true]
          rcases rest with _ | ⟨c, _ | ⟨d, _ | ⟨e, rest⟩⟩⟩
          · rfl
          · rfl
          · rfl
          · have hc := c.toNat_lt
            have hd := d.toNat_lt
            have he := e.toNat_lt
            have hvalue : Bytes.be [b, c, d, e] % 0x20000000 =
                (b.toNat - 0xC0) * 0x1000000 + c.toNat * 0x10000 + d.toNat * 0x100 + e.toNat := by
              simp only [Bytes.be, List.foldl_cons, List.foldl_nil]
              omega
            simp [Bytes.slice?, get, behind, Bytes.from?, hvalue]
        · obtain ⟨n, hn⟩ := Nat.exists_eq_add_of_le' (hnone (by omega))
          simp only [hn, if_neg h₃]
          rfl

theorem unsigned_eq (data : Bytes) : unsigned data = answer (SequencePoint.unsigned data) := by
  rw [unsigned, bits_eq, SequencePoint.unsigned, Compressed.unsigned?]
  cases Compressed.bits? data <;> rfl

/-- Value bits are as many as is said, and they take at least one byte. -/
theorem bounds_of_bits? {data rest : Bytes} {raw width : Nat} (h : Compressed.bits? data = some (raw, width, rest)) :
    1 ≤ width ∧ width ≤ 29 ∧ raw < 2 ^ width ∧ rest.length < data.length := by
  unfold Compressed.bits? at h
  split at h
  · cases h
  next b behind =>
    have hb := b.toNat_lt
    -- the first byte tells whether there are one, two or four
    dsimp only at h
    split at h
    · cases h
      simp only [List.length_cons]
      omega
    · split at h
      · split at h
        · next c rest =>
          have hc := c.toNat_lt
          cases h
          simp only [List.length_cons]
          omega
        · cases h
      · split at h
        · split at h
          · next c d e rest =>
            have hc := c.toNat_lt
            have hd := d.toNat_lt
            have he := e.toNat_lt
            cases h
            simp only [List.length_cons]
            omega
          · cases h
        · cases h

/-- **A signed number is read without stopping**: neither its magnitude nor its sign leaves 32 bits. -/
theorem signed_eq (data : Bytes) : signed data = answer (SequencePoint.signed data) := by
  rw [signed, bits_eq, SequencePoint.signed, Compressed.signed?]
  cases h : Compressed.bits? data with
  | none => rfl
  | some r =>
    obtain ⟨raw, width, rest⟩ := r
    obtain ⟨hl, hh, hraw, -⟩ := bounds_of_bits? h
    have hpow : 2 ^ width = 2 * 2 ^ (width - 1) := by
      rw [← Nat.pow_succ']
      congr 1
      omega
    have hle : 2 ^ (width - 1) ≤ 2 ^ 28 := Nat.pow_le_pow_right (by omega) (by omega)
    have hmagnitude : i32 (raw / 2 : Nat) = pure ((raw / 2 : Nat) : Int) := i32_of_bounds (by omega) (by omega)
    simp only [require_some, answer_ok, pure_bind, hmagnitude, Option.map_some, Compressed.ofRotated]
    split
    · rfl
    · rw [minus_of_le hl, pure_bind, shiftLeft_of_lt (by omega), pure_bind, Nat.one_shiftLeft,
        i32_of_bounds (by omega) (by omega), pure_bind, i32_of_bounds (by omega) (by omega), pure_bind]

end Machine

end Symbolicate.PortablePdb
