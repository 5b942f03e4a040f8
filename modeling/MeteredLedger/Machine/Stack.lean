import MeteredLedger.LedgerError

/-!
# Stacks

A stack is a list of words, the top first, never more than `Stack.capacity`. What would leave
too many words, or finds too few, is refused and changes nothing.
-/

namespace MeteredLedger

/-- The words that a stack may hold. -/
def Stack.capacity : Nat := 1024

/-- The words of a frame. -/
structure Stack where
  /-- The words, the top first. -/
  words : List Word
  /-- There are never too many. -/
  height_le : words.length ≤ Stack.capacity

namespace Stack

/-- The stack without words. -/
def empty : Stack := ⟨[], Nat.zero_le _⟩

instance : Inhabited Stack := ⟨empty⟩

/-- The number of words. -/
def height (s : Stack) : Nat := s.words.length

/-- The top. -/
def top? (s : Stack) : Option Word := s.words.head?

/-- Puts a word on top. -/
def push (s : Stack) (w : Word) : Except LedgerError Stack :=
  if h : s.words.length < capacity then .ok ⟨w :: s.words, h⟩ else .error .stackOverflow

/-- Takes `n` words from the top, the top first. -/
def popMany (s : Stack) (n : Nat) : Except LedgerError (Vector Word n × Stack) :=
  if h : n ≤ s.words.length then
    .ok (⟨(s.words.take n).toArray, by simp [h]⟩,
      ⟨s.words.drop n, by have := s.height_le; simp only [List.length_drop]; omega⟩)
  else .error .stackUnderflow

/-- Takes the top. -/
def pop (s : Stack) : Except LedgerError (Word × Stack) :=
  match s with
  | ⟨[], _⟩ => .error .stackUnderflow
  | ⟨w :: words, h⟩ => .ok (w, ⟨words, by simp only [List.length_cons] at h; omega⟩)

/-- Puts a copy of the word at position `n` on top, the top being at 1. -/
def dup (s : Stack) (n : Nat) : Except LedgerError Stack :=
  if n = 0 then .error .stackUnderflow
  else match s.words[n - 1]? with
    | some w => s.push w
    | none => .error .stackUnderflow

/-- Exchanges the top with the word `n` below it. -/
def swap (s : Stack) (n : Nat) : Except LedgerError Stack :=
  if n = 0 then .error .stackUnderflow
  else match s.words[0]?, s.words[n]? with
    | some top, some other =>
      .ok ⟨(s.words.set 0 other).set n top, by simpa using s.height_le⟩
    | _, _ => .error .stackUnderflow

end Stack

end MeteredLedger
