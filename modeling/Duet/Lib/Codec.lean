import Mathlib.Algebra.Group.Nat.Defs
import Mathlib.Data.List.Basic
import Mathlib.Data.Vector.Basic
import Mathlib.Tactic.Ring

/-!
# Binary formats

A codec writes values as bytes and reads them back from the front of a byte list. It
carries the proofs that a written value is read back whatever follows it, and that what is
read is what the value would be written as. Formats are put together from the codecs of
their parts, and no proof has to be made for them again.
-/

namespace Duet.Lib

/-- A format for the values that are `valid`; others cannot be written. -/
structure Codec (α : Type) where
  valid : α → Bool
  encode : α → List UInt8
  decode : List UInt8 → Option (α × List UInt8)
  decode_encode : ∀ {a rest}, valid a = true → decode (encode a ++ rest) = some (a, rest)
  encode_decode : ∀ {a rest bytes}, decode bytes = some (a, rest) →
    valid a = true ∧ bytes = encode a ++ rest

namespace Codec

variable {α β : Type}

section Laws

variable {c : Codec α} {a : α} {bytes rest front back extra : List UInt8}

/-- A value is read from its own bytes, with nothing left. -/
theorem decode_encode_nil (valid : c.valid a = true) : c.decode (c.encode a) = some (a, []) := by
  have read := @decode_encode _ c a [] valid
  rwa [List.append_nil] at read

/-- What was read is read again when more bytes follow. -/
theorem decode_append (read : c.decode bytes = some (a, rest)) :
    c.decode (bytes ++ extra) = some (a, rest ++ extra) := by
  obtain ⟨valid, rfl⟩ := c.encode_decode read
  rw [List.append_assoc]
  exact c.decode_encode valid

/-- No encoding is a proper prefix of another one. -/
theorem decode_eq_none_of_prefix (read : c.decode (front ++ back) = some (a, []))
    (proper : back ≠ []) : c.decode front = none := by
  cases short : c.decode front with
  | none => rfl
  | some result =>
    obtain ⟨b, left⟩ := result
    have same := read.symm.trans (decode_append short)
    have nothing : [] = left ++ back := congrArg Prod.snd (Option.some.inj same)
    exact absurd (List.append_eq_nil_iff.mp nothing.symm).2 proper

end Laws

/-! ## Changing the type of a format -/

/-- Read a value of another type with the same information. -/
def imap (c : Codec α) (f : α → β) (g : β → α) (fg : ∀ b, f (g b) = b)
    (gf : ∀ a, c.valid a = true → g (f a) = a) : Codec β where
  valid b := c.valid (g b)
  encode b := c.encode (g b)
  decode bytes := (c.decode bytes).map fun result => (f result.1, result.2)
  decode_encode := by
    intro b rest valid
    rw [c.decode_encode valid, Option.map_some, fg]
  encode_decode := by
    intro b rest bytes read
    obtain ⟨⟨a, left⟩, found, same⟩ := Option.map_eq_some_iff.mp read
    cases same
    have read := c.encode_decode found
    rw [gf a read.1]
    exact read

/-- Accept only values that pass a check. -/
def guarded (c : Codec α) (check : α → Bool) : Codec α where
  valid a := c.valid a && check a
  encode := c.encode
  decode bytes := (c.decode bytes).filter fun result => check result.1
  decode_encode := by
    intro a rest valid
    obtain ⟨inner, passes⟩ := (Bool.and_eq_true_iff).mp valid
    rw [c.decode_encode inner, Option.filter_some, if_pos passes]
  encode_decode := by
    intro a rest bytes read
    obtain ⟨found, passes⟩ := Option.filter_eq_some_iff.mp read
    obtain ⟨valid, whole⟩ := c.encode_decode found
    exact ⟨Bool.and_eq_true_iff.mpr ⟨valid, passes⟩, whole⟩

/-! ## Composite formats -/

/-- One value after the other. -/
def pair (c : Codec α) (d : Codec β) : Codec (α × β) where
  valid ab := c.valid ab.1 && d.valid ab.2
  encode ab := c.encode ab.1 ++ d.encode ab.2
  decode bytes :=
    (c.decode bytes).bind fun first =>
      (d.decode first.2).map fun second => ((first.1, second.1), second.2)
  decode_encode := by
    intro ab rest valid
    obtain ⟨left, right⟩ := (Bool.and_eq_true_iff).mp valid
    rw [List.append_assoc, c.decode_encode left, Option.bind_some, d.decode_encode right]
    rfl
  encode_decode := by
    intro ab rest bytes read
    obtain ⟨⟨a, middle⟩, first, read⟩ := Option.bind_eq_some_iff.mp read
    obtain ⟨⟨b, left⟩, second, same⟩ := Option.map_eq_some_iff.mp read
    cases same
    obtain ⟨validA, rfl⟩ := c.encode_decode first
    obtain ⟨validB, rfl⟩ := d.encode_decode second
    exact ⟨Bool.and_eq_true_iff.mpr ⟨validA, validB⟩, (List.append_assoc ..).symm⟩

/-- Exactly `n` values, one after the other. -/
def decodeMany (c : Codec α) : Nat → List UInt8 → Option (List α × List UInt8)
  | 0, bytes => some ([], bytes)
  | n + 1, bytes =>
    (c.decode bytes).bind fun first =>
      (decodeMany c n first.2).map fun others => (first.1 :: others.1, others.2)

theorem decodeMany_encode {c : Codec α} {items : List α} {rest : List UInt8}
    (valid : items.all c.valid = true) :
    c.decodeMany items.length (items.flatMap c.encode ++ rest) = some (items, rest) := by
  induction items with
  | nil => rfl
  | cons a items ih =>
    rw [List.all_cons, Bool.and_eq_true_iff] at valid
    rw [List.length_cons, decodeMany, List.flatMap_cons, List.append_assoc,
      c.decode_encode valid.1, Option.bind_some, ih valid.2]
    rfl

theorem encode_decodeMany {c : Codec α} {n : Nat} {items : List α} {bytes rest : List UInt8}
    (read : c.decodeMany n bytes = some (items, rest)) :
    items.length = n ∧ items.all c.valid = true ∧ bytes = items.flatMap c.encode ++ rest := by
  induction n generalizing bytes items with
  | zero =>
    cases read
    exact ⟨rfl, rfl, rfl⟩
  | succ n ih =>
    obtain ⟨⟨a, middle⟩, first, read⟩ := Option.bind_eq_some_iff.mp read
    obtain ⟨⟨others, left⟩, later, same⟩ := Option.map_eq_some_iff.mp read
    cases same
    obtain ⟨valid, rfl⟩ := c.encode_decode first
    obtain ⟨length, valids, rfl⟩ := ih later
    refine ⟨congrArg (· + 1) length, ?_, ?_⟩
    · rw [List.all_cons, valid, valids, Bool.and_self]
    · rw [List.flatMap_cons, List.append_assoc]

/-- A list behind its length. -/
def vec (length : Codec Nat) (c : Codec α) : Codec (List α) where
  valid items := length.valid items.length && items.all c.valid
  encode items := length.encode items.length ++ items.flatMap c.encode
  decode bytes := (length.decode bytes).bind fun counted => c.decodeMany counted.1 counted.2
  decode_encode := by
    intro items rest valid
    obtain ⟨fits, valids⟩ := (Bool.and_eq_true_iff).mp valid
    rw [List.append_assoc, length.decode_encode fits, Option.bind_some]
    exact decodeMany_encode valids
  encode_decode := by
    intro items rest bytes read
    obtain ⟨⟨n, middle⟩, counted, many⟩ := Option.bind_eq_some_iff.mp read
    obtain ⟨fits, rfl⟩ := length.encode_decode counted
    obtain ⟨rfl, valids, rfl⟩ := encode_decodeMany many
    exact ⟨Bool.and_eq_true_iff.mpr ⟨fits, valids⟩, (List.append_assoc ..).symm⟩

/-- As many values as a vector has, without their number. -/
def vector (c : Codec α) (n : Nat) : Codec (Vector α n) where
  valid items := items.toList.all c.valid
  encode items := items.toList.flatMap c.encode
  decode bytes :=
    (c.decodeMany n bytes).bind fun result =>
      if length : result.1.length = n then some (⟨result.1.toArray, length⟩, result.2) else none
  decode_encode := by
    intro items rest valid
    have read := @decodeMany_encode _ c _ rest valid
    rw [Vector.length_toList] at read
    rw [read, Option.bind_some, dif_pos (by simp)]
    rfl
  encode_decode := by
    intro items rest bytes read
    obtain ⟨⟨found, left⟩, many, read⟩ := Option.bind_eq_some_iff.mp read
    split at read
    · cases read
      obtain ⟨-, valids, whole⟩ := encode_decodeMany many
      exact ⟨valids, whole⟩
    · cases read

/-! ## Numbers and tags -/

/-- One byte. -/
def byte : Codec UInt8 where
  valid _ := true
  encode b := [b]
  decode bytes :=
    match bytes with
    | [] => none
    | b :: rest => some (b, rest)
  decode_encode := fun _ => rfl
  encode_decode := by
    intro b rest bytes read
    cases bytes with
    | nil => cases read
    | cons b' rest' =>
      cases read
      exact ⟨rfl, rfl⟩

/-- The bytes of a number, least significant first. -/
def leBytes : Nat → Nat → List UInt8
  | 0, _ => []
  | n + 1, value => UInt8.ofNat (value % 256) :: leBytes n (value / 256)

def leValue : List UInt8 → Nat
  | [] => 0
  | b :: rest => b.toNat + 256 * leValue rest

@[simp] theorem length_leBytes (n value : Nat) : (leBytes n value).length = n := by
  induction n generalizing value with
  | zero => rfl
  | succ n ih => rw [leBytes, List.length_cons, ih]

theorem leValue_leBytes (n value : Nat) (fits : value < 256 ^ n) :
    leValue (leBytes n value) = value := by
  induction n generalizing value with
  | zero =>
    rw [pow_zero, Nat.lt_one_iff] at fits
    rw [fits]
    rfl
  | succ n ih =>
    have smaller : value / 256 < 256 ^ n := by
      rw [pow_succ] at fits
      exact Nat.div_lt_of_lt_mul (by rwa [Nat.mul_comm])
    have low : (UInt8.ofNat (value % 256)).toNat = value % 256 := by simp
    rw [leBytes, leValue, ih _ smaller, low]
    omega

theorem leValue_lt (bytes : List UInt8) : leValue bytes < 256 ^ bytes.length := by
  induction bytes with
  | nil => exact Nat.zero_lt_one
  | cons b rest ih =>
    have low := b.toNat_lt
    rw [leValue, List.length_cons, pow_succ]
    omega

theorem leBytes_leValue (bytes : List UInt8) : leBytes bytes.length (leValue bytes) = bytes := by
  induction bytes with
  | nil => rfl
  | cons b rest ih =>
    have low := b.toNat_lt
    have mod : (b.toNat + 256 * leValue rest) % 256 = b.toNat := by omega
    have div : (b.toNat + 256 * leValue rest) / 256 = leValue rest := by omega
    rw [List.length_cons, leValue, leBytes, mod, div, ih, UInt8.ofNat_toNat]

/-- A number in `n` bytes, least significant first. -/
def littleEndian (n : Nat) : Codec Nat where
  valid value := decide (value < 256 ^ n)
  encode value := leBytes n value
  decode bytes :=
    if n ≤ bytes.length then some (leValue (bytes.take n), bytes.drop n) else none
  decode_encode := by
    intro value rest valid
    have fits := of_decide_eq_true valid
    have whole : (leBytes n value ++ rest).take n = leBytes n value :=
      List.take_left' (length_leBytes n value)
    have left : (leBytes n value ++ rest).drop n = rest :=
      List.drop_left' (length_leBytes n value)
    rw [if_pos (by simp), whole, left, leValue_leBytes n value fits]
  encode_decode := by
    intro value rest bytes read
    split at read
    · next enough =>
      cases read
      have length : (bytes.take n).length = n := by simpa using enough
      have small := leValue_lt (bytes.take n)
      have same := leBytes_leValue (bytes.take n)
      rw [length] at small same
      rw [same]
      exact ⟨decide_eq_true small, (List.take_append_drop n bytes).symm⟩
    · cases read

/-- A truth value in one byte, which is 0 or 1. -/
def bool : Codec Bool where
  valid _ := true
  encode b := [if b then 1 else 0]
  decode bytes :=
    match bytes with
    | [] => none
    | tag :: rest =>
      if tag = 0 then some (false, rest) else if tag = 1 then some (true, rest) else none
  decode_encode := by
    intro b rest _
    cases b <;> rfl
  encode_decode := by
    intro b rest bytes read
    cases bytes with
    | nil => cases read
    | cons tag rest' =>
      dsimp only at read
      split at read
      · next zero =>
        cases read
        exact ⟨rfl, by rw [zero]; rfl⟩
      · split at read
        · next one =>
          cases read
          exact ⟨rfl, by rw [one]; rfl⟩
        · cases read

/-- A value that may be absent, behind a byte that says so. -/
def option (c : Codec α) : Codec (Option α) where
  valid a := a.all c.valid
  encode a :=
    match a with
    | none => [0]
    | some a => 1 :: c.encode a
  decode bytes :=
    (bool.decode bytes).bind fun tag =>
      if tag.1 then (c.decode tag.2).map fun result => (some result.1, result.2)
      else some (none, tag.2)
  decode_encode := by
    intro a rest valid
    cases a with
    | none => rfl
    | some a =>
      show (c.decode (c.encode a ++ rest)).map _ = _
      rw [c.decode_encode valid]
      rfl
  encode_decode := by
    intro a rest bytes read
    obtain ⟨⟨tag, middle⟩, tagged, read⟩ := Option.bind_eq_some_iff.mp read
    obtain ⟨-, rfl⟩ := bool.encode_decode tagged
    cases tag with
    | false =>
      cases read
      exact ⟨rfl, rfl⟩
    | true =>
      obtain ⟨⟨a, left⟩, found, same⟩ := Option.map_eq_some_iff.mp read
      cases same
      obtain ⟨valid, rfl⟩ := c.encode_decode found
      exact ⟨valid, rfl⟩

end Codec

end Duet.Lib
