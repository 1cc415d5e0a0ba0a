/-!
# Names

Symbols of a grammar are known by name. A **name** is any text but the empty one: terminals
and non-terminals draw on the same names, and it is the grammar, not the spelling, that says
which of the two a name stands for.

Names are ordered by their code points. The **numbered** names `Z0`, `Z1`, … are handed out where
a symbol is needed that the grammar does not have yet; two numbers never share a name.
-/

namespace ContextFree

/-- A **name** is a text with at least one character. -/
@[ext]
structure Name where
  text : String
  text_ne_empty : text ≠ ""
deriving DecidableEq

namespace Name

/-- Names are compared as their texts are: code point by code point, a proper beginning first. -/
instance : Ord Name := ⟨fun a b => compare a.text b.text⟩

def ofString? (text : String) : Option Name :=
  if h : text = "" then none else some ⟨text, h⟩

/-- The name spelled by the characters `c`, `cs`; having a first character, it is not empty. -/
def ofCons (c : Char) (cs : List Char) : Name where
  text := String.ofList (c :: cs)
  text_ne_empty h := by
    have := congrArg String.toList h
    simp at this

/-- The name spelled by a list of characters, if there is one to spell. -/
def ofChars? : List Char → Option Name
  | [] => none
  | c :: cs => some (ofCons c cs)

/-- The `n`-th numbered name: the letter `Z` followed by `n` in decimal digits. -/
def numbered (n : Nat) : Name where
  text := "Z" ++ toString n
  text_ne_empty h := by
    have := congrArg String.toList h
    simp at this

@[simp] theorem text_ofCons (c : Char) (cs : List Char) :
    (ofCons c cs).text = String.ofList (c :: cs) := rfl

@[simp] theorem text_numbered (n : Nat) : (numbered n).text = "Z" ++ toString n := rfl

theorem ofString?_eq_some_iff {text : String} {a : Name} :
    ofString? text = some a ↔ a.text = text := by
  unfold ofString?
  split
  · next empty => exact ⟨nofun, fun h => absurd (h.trans empty) a.text_ne_empty⟩
  · exact ⟨fun h => by cases h; rfl, fun h => by subst h; rfl⟩

theorem ofString?_eq_none_iff {text : String} : ofString? text = none ↔ text = "" := by
  simp [ofString?]

theorem toList_text_ne_nil (a : Name) : a.text.toList ≠ [] := by
  intro none
  refine a.text_ne_empty (String.toList_injective ?_)
  rw [none, String.toList_empty]

/-- A list of characters spells the name that has them. -/
theorem ofChars?_eq_some_iff {cs : List Char} {a : Name} :
    ofChars? cs = some a ↔ a.text.toList = cs := by
  cases cs with
  | nil => exact ⟨nofun, fun none => absurd none a.toList_text_ne_nil⟩
  | cons c cs =>
    rw [ofChars?, Option.some_inj]
    constructor
    · rintro rfl
      exact String.toList_ofList
    · intro chars
      ext1
      rw [text_ofCons, ← chars, String.ofList_toList]

theorem numbered_inj {m n : Nat} : numbered m = numbered n ↔ m = n := by
  refine ⟨fun h => ?_, fun h => congrArg numbered h⟩
  have digits : (toString m).toList = (toString n).toList := by
    have := congrArg (fun a => a.text.toList) h
    simpa using this
  rw [Nat.toString_eq_ofList_toDigits, Nat.toString_eq_ofList_toDigits, String.toList_ofList,
    String.toList_ofList] at digits
  rw [← @Nat.ofDigitChars_ten_toDigits m, digits, Nat.ofDigitChars_ten_toDigits]

/-- A name that begins with another letter is not a numbered one. -/
theorem numbered_ne_ofCons {c : Char} (h : c ≠ 'Z') (cs : List Char) (n : Nat) :
    numbered n ≠ ofCons c cs := by
  intro same
  have chars : 'Z' :: (toString n).toList = c :: cs := by
    simpa using congrArg (fun a => a.text.toList) same
  exact h (List.cons.inj chars).1.symm

end Name

end ContextFree
