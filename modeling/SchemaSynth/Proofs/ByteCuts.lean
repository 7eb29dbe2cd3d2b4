import SchemaSynth.Proofs.Identifiers
import Mathlib.Data.Nat.Find

/-! Where identifiers are cut. The place is looked for in the bytes of UTF-8, from the limit back to where
a character starts, and what stands in front of it is the longest start of whole characters that fits. -/
namespace SchemaSynth

namespace Text
variable {text : String} {start cs : List Char} {byte limit : Nat}

private theorem byteLength_eq_utf8ByteSize (cs : List Char) :
    byteLength cs = (String.ofList cs).utf8ByteSize := by
  induction cs with
  | nil => rfl
  | cons c cs ih =>
    rw [byteLength, ih]
    simp

private theorem byteLength_toList (text : String) : byteLength text.toList = text.utf8ByteSize := by
  rw [byteLength_eq_utf8ByteSize, String.ofList_toList]

private theorem takeBytes_longest (h : start <+: cs) (hfits : byteLength start ≤ limit) :
    start <+: takeBytes limit cs := by
  obtain ⟨rest, rfl⟩ := h
  rw [takeBytes_append, takeBytes_of_le hfits]
  exact List.prefix_append _ _

private theorem takeBytes_zero (cs : List Char) : takeBytes 0 cs = [] := by
  cases cs with
  | nil => rfl
  | cons c cs =>
    have hsize := c.utf8Size_pos
    exact if_neg (by omega)

private theorem takeBytes_min (limit : Nat) (cs : List Char) :
    takeBytes (min limit (byteLength cs)) cs = takeBytes limit cs := by
  rcases Nat.le_total limit (byteLength cs) with h | h
  · rw [Nat.min_eq_left h]
  · rw [Nat.min_eq_right h, takeBytes_of_le (Nat.le_refl _), takeBytes_of_le h]

/-- A character starts at the byte, or the text ends there. -/
def IsBoundary (text : String) (byte : Nat) : Prop :=
  (⟨byte⟩ : String.Pos.Raw).IsValid text

instance (text : String) : DecidablePred (IsBoundary text) := fun byte =>
  inferInstanceAs (Decidable ((⟨byte⟩ : String.Pos.Raw).IsValid text))

private theorem isBoundary_iff :
    IsBoundary text byte ↔ ∃ start, start <+: text.toList ∧ byteLength start = byte := by
  rw [IsBoundary, String.Pos.Raw.isValid_iff_exists_append]
  constructor
  · rintro ⟨start, rest, rfl, hbyte⟩
    refine ⟨start.toList, ?_, ?_⟩
    · rw [String.toList_append]
      exact List.prefix_append _ _
    · rw [byteLength_toList]
      exact (congrArg String.Pos.Raw.byteIdx hbyte).symm
  · rintro ⟨start, ⟨rest, htext⟩, rfl⟩
    refine ⟨String.ofList start, String.ofList rest, ?_, ?_⟩
    · rw [← String.ofList_append, htext, String.ofList_toList]
    · exact String.Pos.Raw.ext (byteLength_eq_utf8ByteSize start)

/-- The nearest boundary at a byte or in front of it, looked for one byte after the other. There is no
byte in front of the first. -/
def boundaryBefore? (text : String) : Nat → Option Nat
  | 0 => if IsBoundary text 0 then some 0 else none
  | byte + 1 => if IsBoundary text (byte + 1) then some (byte + 1) else boundaryBefore? text byte

private theorem boundaryBefore?_eq_findGreatest (text : String) (byte : Nat) :
    boundaryBefore? text byte = some (Nat.findGreatest (IsBoundary text) byte) := by
  induction byte with
  | zero => exact if_pos (isBoundary_iff.mpr ⟨[], List.nil_prefix, rfl⟩)
  | succ byte ih =>
    rw [boundaryBefore?, ih, Nat.findGreatest_succ]
    split <;> rfl

private theorem boundaryBefore?_eq (text : String) (byte : Nat) :
    boundaryBefore? text byte = some (byteLength (takeBytes byte text.toList)) := by
  rw [boundaryBefore?_eq_findGreatest, Option.some_inj, Nat.findGreatest_eq_iff]
  refine ⟨byteLength_takeBytes_le _ _, fun _ => ?_, fun further hlt hle hboundary => ?_⟩
  · exact isBoundary_iff.mpr ⟨_, takeBytes_prefix_self _ _, rfl⟩
  · obtain ⟨start, hstart, rfl⟩ := isBoundary_iff.mp hboundary
    obtain ⟨rest, hrest⟩ := takeBytes_longest hstart hle
    rw [← hrest, byteLength_append] at hlt
    omega

/-- The text up to a byte. There is none if a character would be cut in two. -/
def upTo? (text : String) (byte : Nat) : Option String :=
  if h : IsBoundary text byte then
    some (.ofByteArray (text.toByteArray.extract 0 byte) h.isValidUTF8_extract_zero)
  else none

private theorem upTo?_byteLength (h : start <+: text.toList) :
    upTo? text (byteLength start) = some (String.ofList start) := by
  have hboundary : IsBoundary text (byteLength start) := isBoundary_iff.mpr ⟨start, h, rfl⟩
  obtain ⟨rest, hrest⟩ := h
  obtain rfl : text = String.ofList start ++ String.ofList rest := by
    rw [← String.ofList_append, hrest, String.ofList_toList]
  rw [upTo?, dif_pos hboundary, Option.some_inj, ← String.toByteArray_inj]
  exact ByteArray.extract_append_eq_left (byteLength_eq_utf8ByteSize start)

end Text

namespace Identifier
open Text
variable {room : Nat} {name base suffix : String}

/-- `truncate` on the bytes of a name. There is no result if the search finds no boundary, or if what it
finds is none. -/
def truncateBytes? (name : String) : Option String :=
  if name.utf8ByteSize ≤ maxBytes then some name
  else (boundaryBefore? name maxBytes).bind (upTo? name)

/-- `suffixed` on the bytes of a base. -/
def suffixedBytes? (base suffix : String) : Option String :=
  ((boundaryBefore? base (min (maxBytes - suffix.utf8ByteSize) base.utf8ByteSize)).bind (upTo? base)).map
    (· ++ suffix)

private theorem bind_boundaryBefore? (text : String) (limit : Nat) :
    (boundaryBefore? text limit).bind (upTo? text) =
      some (String.ofList (takeBytes limit text.toList)) := by
  rw [boundaryBefore?_eq, Option.bind_some, upTo?_byteLength (takeBytes_prefix_self _ _)]

private theorem truncate_of_fits (h : name.utf8ByteSize ≤ maxBytes) : truncate name = name := by
  rw [truncate, takeBytes_of_le (by rwa [byteLength_toList]), String.ofList_toList]

private theorem suffixed_of_fits (h : base.utf8ByteSize + suffix.utf8ByteSize ≤ maxBytes) :
    suffixed base suffix = base ++ suffix := by
  have hbase : byteLength base.toList ≤ maxBytes - suffix.utf8ByteSize := by
    rw [byteLength_toList]
    omega
  rw [suffixed, byteLength_toList, takeBytes_of_le hbase, String.ofList_toList]

private theorem truncateBytes?_eq (name : String) : truncateBytes? name = some (truncate name) := by
  rw [truncateBytes?]
  split
  · rename_i hfits
    rw [truncate_of_fits hfits]
  · exact bind_boundaryBefore? name maxBytes

private theorem suffixedBytes?_eq (base suffix : String) :
    suffixedBytes? base suffix = some (suffixed base suffix) := by
  rw [suffixedBytes?, bind_boundaryBefore?, Option.map_some, ← byteLength_toList base, takeBytes_min,
    ← byteLength_toList suffix, suffixed]

/-- The longest start of a text, in whole characters, that leaves room for so many bytes in a name. -/
structure LongestStart (room : Nat) (text start : String) : Prop where
  starts : start.toList <+: text.toList
  fits : start.utf8ByteSize + room ≤ maxBytes
  longest : ∀ other : String, other.toList <+: text.toList → other.utf8ByteSize + room ≤ maxBytes →
    other.toList <+: start.toList

private theorem longestStart_takeBytes (h : room ≤ maxBytes) (text : String) :
    LongestStart room text (String.ofList (takeBytes (maxBytes - room) text.toList)) := by
  have hlength := byteLength_takeBytes_le (maxBytes - room) text.toList
  refine ⟨?_, ?_, fun other hother hfits => ?_⟩
  · rw [String.toList_ofList]
    exact takeBytes_prefix_self _ _
  · rw [← byteLength_eq_utf8ByteSize]
    omega
  · rw [String.toList_ofList]
    refine takeBytes_longest hother ?_
    rw [byteLength_toList]
    omega

/-- The search for the place of a cut always ends, and no character is cut in two. What is left of a name
is its longest start within the limit, and what is left of a base is the longest that leaves room for
the suffix. What is within the limit is kept whole. -/
theorem cuts_longest (name base suffix : String) :
    (truncateBytes? name = some (truncate name) ∧ LongestStart 0 name (truncate name) ∧
      truncate (truncate name) = truncate name ∧
      (name.utf8ByteSize ≤ maxBytes → truncate name = name)) ∧
    (suffixedBytes? base suffix = some (suffixed base suffix) ∧
      (∃ start, suffixed base suffix = start ++ suffix ∧
        (suffix.utf8ByteSize ≤ maxBytes → LongestStart suffix.utf8ByteSize base start) ∧
        (maxBytes < suffix.utf8ByteSize → start = "")) ∧
      (base.utf8ByteSize + suffix.utf8ByteSize ≤ maxBytes → suffixed base suffix = base ++ suffix)) := by
  have hname : LongestStart 0 name (truncate name) := longestStart_takeBytes (Nat.zero_le _) name
  refine ⟨⟨truncateBytes?_eq name, hname, truncate_of_fits hname.fits, truncate_of_fits⟩,
    suffixedBytes?_eq base suffix, ⟨_, rfl, fun hfits => ?_, fun hlong => ?_⟩, fun hfits => ?_⟩
  · rw [byteLength_toList]
    exact longestStart_takeBytes hfits base
  · rw [byteLength_toList, Nat.sub_eq_zero_of_le (Nat.le_of_lt hlong), takeBytes_zero]
  · exact suffixed_of_fits hfits

/-- A text of 64 bytes, with a character on the limit that takes two of them. -/
def wideName : String := String.ofList (List.replicate 32 'é')

/-- Names of wide characters are cut between two of them, and short names are left as they are. -/
theorem wideName_cut :
    (LongestStart 0 wideName (truncate wideName) ∧ truncate wideName = String.ofList (List.replicate 31 'é')) ∧
    ("order".utf8ByteSize ≤ maxBytes ∧ truncate "order" = "order") ∧
    ("_id".utf8ByteSize ≤ maxBytes ∧
      ∃ start, suffixed wideName "_id" = start ++ "_id" ∧ LongestStart 3 wideName start) ∧
    (maxBytes < wideName.utf8ByteSize ∧ suffixed "order" wideName = "" ++ wideName) ∧
    ("order".utf8ByteSize + "_id".utf8ByteSize ≤ maxBytes ∧ suffixed "order" "_id" = "order" ++ "_id") := by
  have hwide : maxBytes < wideName.utf8ByteSize := by
    rw [← byteLength_toList]
    decide
  obtain ⟨⟨_, hname, _⟩, _, ⟨start, hstart, hroom, _⟩, _⟩ := cuts_longest wideName wideName "_id"
  obtain ⟨⟨_, _, _, horder⟩, _, ⟨nothing, hnothing, _, hlong⟩, _⟩ := cuts_longest "order" "order" wideName
  obtain ⟨_, _, _, hwhole⟩ := cuts_longest "order" "order" "_id"
  refine ⟨⟨hname, by decide⟩, ⟨by decide, horder (by decide)⟩, ⟨by decide, start, hstart, hroom (by decide)⟩,
    ⟨hwide, ?_⟩, by decide, hwhole (by decide)⟩
  rw [hnothing, hlong hwide]

end Identifier
end SchemaSynth
