import SchemaSynth.Proofs.SnakeCase
import SchemaSynth.Synthesis.Attribute

/-! Declarations of attributes, read with nothing stripped from them. The visibility mark and the blanks
around it leave no trace in the name of a column, and the blanks at the end none in its type. -/
namespace SchemaSynth.Attribute
open Identifier Text
variable {c : Char} {cs name word : List Char}

def reading (declaration : List Char) : String × ColumnType :=
  match splitAtColon declaration with
  | some (name, word) => (sanitize (String.ofList name), typeOfWord (String.ofList word))
  | none => (sanitize (String.ofList declaration), .text)

private theorem ne_colon_of_isBlank (h : isBlank c = true) : c ≠ ':' := by
  rintro rfl
  exact absurd h (by decide)

private theorem parse_eq_reading (raw : String) : parse raw = reading (stripVisibility raw.toList) := rfl

private theorem reading_of_colon (h : splitAtColon cs = some (name, word)) :
    reading cs = (sanitize (String.ofList name), typeOfWord (String.ofList word)) := by
  rw [reading, h]

private theorem reading_of_no_colon (h : splitAtColon cs = none) :
    reading cs = (sanitize (String.ofList cs), .text) := by
  rw [reading, h]

section Start

private theorem splitAtColon_cons (h : c ≠ ':') (cs : List Char) :
    splitAtColon (c :: cs) = (splitAtColon cs).map fun (name, word) => (c :: name, word) :=
  if_neg h

private theorem reading_cons (hword : isWord c = false) (hcolon : c ≠ ':') (cs : List Char) :
    reading (c :: cs) = reading cs := by
  have hlonger := splitAtColon_cons hcolon cs
  cases hsplit : splitAtColon cs with
  | none =>
    rw [hsplit, Option.map_none] at hlonger
    rw [reading_of_no_colon hlonger, reading_of_no_colon hsplit, sanitize_cons hword]
  | some parts =>
    rw [hsplit, Option.map_some] at hlonger
    rw [reading_of_colon hlonger, reading_of_colon hsplit, sanitize_cons hword]

end Start

section Stop

private theorem typeOfWord_concat (h : isBlank c = true) (word : List Char) :
    typeOfWord (String.ofList (word ++ [c])) = typeOfWord (String.ofList word) := by
  simp only [typeOfWord, String.toList_ofList, trim_eq_strip, strip_concat h]

private theorem splitAtColon_concat (h : c ≠ ':') (cs : List Char) :
    splitAtColon (cs ++ [c]) = (splitAtColon cs).map fun (name, word) => (name, word ++ [c]) := by
  induction cs with
  | nil => simp [splitAtColon, h]
  | cons d cs ih =>
    by_cases hd : d = ':'
    · simp [splitAtColon, hd]
    · rw [List.cons_append, splitAtColon_cons hd, splitAtColon_cons hd, ih, Option.map_map,
        Option.map_map]
      rfl

private theorem reading_concat (h : isBlank c = true) (cs : List Char) : reading (cs ++ [c]) = reading cs := by
  have hlonger := splitAtColon_concat (ne_colon_of_isBlank h) cs
  cases hsplit : splitAtColon cs with
  | none =>
    rw [hsplit, Option.map_none] at hlonger
    rw [reading_of_no_colon hlonger, reading_of_no_colon hsplit, sanitize_concat (isWord_of_isBlank h)]
  | some parts =>
    rw [hsplit, Option.map_some] at hlonger
    rw [reading_of_colon hlonger, reading_of_colon hsplit, typeOfWord_concat h]

end Stop

private theorem reading_cons_of_blank (h : isBlank c = true) (cs : List Char) :
    reading (c :: cs) = reading cs :=
  reading_cons (isWord_of_isBlank h) (ne_colon_of_isBlank h) cs

private theorem reading_cons_of_visibility (h : isVisibility c = true) (cs : List Char) :
    reading (c :: cs) = reading cs := by
  simp only [isVisibility, Bool.or_eq_true, decide_eq_true_eq] at h
  rcases h with ((rfl | rfl) | rfl) | rfl <;> exact reading_cons (by decide) (by decide) cs

private theorem reading_trimStart (cs : List Char) : reading (trimStart cs) = reading cs :=
  apply_dropWhile (fun _ cs hc => reading_cons_of_blank hc cs) cs

private theorem reading_trim (cs : List Char) : reading (trim cs) = reading cs :=
  apply_strip (fun _ cs hc => reading_cons_of_blank hc cs) (fun _ cs hc => reading_concat hc cs) cs

private theorem reading_stripVisibility (cs : List Char) : reading (stripVisibility cs) = reading cs := by
  rw [← reading_trimStart cs, stripVisibility]
  cases trimStart cs with
  | nil => rfl
  | cons c rest =>
    dsimp only
    rw [reading_trim]
    split
    · rename_i hmark
      rw [reading_trimStart, reading_cons_of_visibility hmark]
    · rfl

/-- What stands in front of the first colon, all of the text if there is none. -/
def namePart (raw : String) : String :=
  String.ofList (raw.toList.takeWhile (· ≠ ':'))

/-- What stands behind the first colon, if there is one. -/
def typePart? (raw : String) : Option String :=
  if ':' ∈ raw.toList then some (String.ofList (raw.toList.dropWhile (· ≠ ':')).tail) else none

private theorem splitAtColon_eq (cs : List Char) : splitAtColon cs =
    if ':' ∈ cs then some (cs.takeWhile (· ≠ ':'), (cs.dropWhile (· ≠ ':')).tail) else none := by
  induction cs with
  | nil => rfl
  | cons c cs ih =>
    by_cases hc : c = ':'
    · simp [splitAtColon, hc]
    · have hmem : ':' ∈ c :: cs ↔ ':' ∈ cs := by simp [Ne.symm hc]
      rw [splitAtColon_cons hc, ih, if_congr hmem rfl rfl, List.takeWhile_cons_of_pos (by simp [hc]),
        List.dropWhile_cons_of_pos (by simp [hc])]
      split <;> rfl

/-- The name of a column is made of all that stands in front of the first colon, and its type is that
of all that stands behind. Without a colon the type is text. -/
theorem parse_eq_parts (raw : String) : parse raw =
    (sanitize (namePart raw), ((typePart? raw).map typeOfWord).getD .text) := by
  rw [parse_eq_reading, reading_stripVisibility]
  have hsplit := splitAtColon_eq raw.toList
  by_cases hcolon : ':' ∈ raw.toList
  · rw [if_pos hcolon] at hsplit
    rw [reading_of_colon hsplit, typePart?, if_pos hcolon, Option.map_some, Option.getD_some, namePart]
  · rw [if_neg hcolon] at hsplit
    have hname : namePart raw = raw := by
      rw [namePart, List.takeWhile_eq_self_iff.mpr, String.ofList_toList]
      intro c hc
      exact decide_eq_true fun heq => hcolon (heq ▸ hc)
    rw [reading_of_no_colon hsplit, typePart?, if_neg hcolon, hname, String.ofList_toList,
      Option.map_none, Option.getD_none]

example : parse "#\u2003 _Birth  date+ : DATE\u00a0" = ("birth_date", .timestamp) := by
  decide

end SchemaSynth.Attribute
