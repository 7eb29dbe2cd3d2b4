import SchemaSynth.Proofs.StatementLines

/-! The lines of a script. Comments set aside, every statement in them is guarded. -/
namespace SchemaSynth
open Identifier Script

section Stamps
variable {word : String}

private theorem feed_of_plain (h : Plain word) : '\n' ∉ word.toList := fun hmem =>
  absurd (h.chars _ hmem) (by decide)

private theorem Moment.feed_padded (width n : Nat) : '\n' ∉ (padded width n).toList := by
  have hzero : '\n' ∉ List.replicate (width - (toString n).length) '0' := by simp
  rw [padded, String.toList_append, String.toList_ofList, List.mem_append, not_or]
  exact ⟨hzero, feed_of_plain (plain_toString n)⟩

private theorem Moment.feed_yearText (year : Int) : '\n' ∉ (yearText year).toList := by
  have hsign : '\n' ∉ (if year < 0 then "-" else "+").toList := by split <;> decide
  rw [yearText]
  split
  · exact feed_padded _ _
  · rw [String.toList_append, List.mem_append, not_or]
    exact ⟨hsign, feed_padded _ _⟩

private theorem Moment.feed_toText (m : Moment) : '\n' ∉ m.toText.toList := by
  have hminus : '\n' ∉ "-".toList := by decide
  have hcolon : '\n' ∉ ":".toList := by decide
  have htime : '\n' ∉ "T".toList := by decide
  have hzone : '\n' ∉ "Z".toList := by decide
  unfold toText
  simp only [String.toList_append, List.mem_append, feed_yearText, feed_padded, hminus, hcolon, htime,
    hzone, or_self, not_false_eq_true]

end Stamps

namespace Script
open Statement

def codeLines (sql : String) : List (List Char) :=
  (sql.toList.splitOn '\n').filter (¬ "--".toList <+: ·)

/-- A part of a script: lines, each of them ended, of which those that are no comments are guarded. -/
def GuardedText (sql : String) : Prop :=
  ∃ ls : List (List Char), sql.toList = ls.flatMap (· ++ ['\n']) ∧ (∀ l ∈ ls, '\n' ∉ l) ∧
    Guarded (ls.filter (¬ "--".toList <+: ·))

private theorem GuardedText.codeLines {sql : String} (h : GuardedText sql) : Guarded (codeLines sql) := by
  obtain ⟨ls, hlist, hfeed, hguarded⟩ := h
  have hlast : Guarded [[]] :=
    guarded_of_loose (List.forall_mem_singleton.mpr (Or.inl breakable_lacks_alter.nil))
  rw [Script.codeLines, hlist, splitOn_flatMap hfeed, List.filter_append]
  exact hguarded.append hlast

private theorem GuardedText.append {sql sql' : String} (h : GuardedText sql) (h' : GuardedText sql') :
    GuardedText (sql ++ sql') := by
  obtain ⟨ls, hlist, hfeed, hguarded⟩ := h
  obtain ⟨ls', hlist', hfeed', hguarded'⟩ := h'
  refine ⟨ls ++ ls', ?_, List.forall_mem_append.mpr ⟨hfeed, hfeed'⟩, ?_⟩
  · rw [String.toList_append, hlist, hlist', List.flatMap_append]
  · rw [List.filter_append]
    exact hguarded.append hguarded'

private theorem guardedText_join {parts : List String} (h : ∀ sql ∈ parts, GuardedText sql) :
    GuardedText (String.join parts) := by
  induction parts with
  | nil => exact ⟨[], rfl, List.forall_mem_nil _, guarded_nil⟩
  | cons sql parts ih =>
    obtain ⟨hsql, hparts⟩ := List.forall_mem_cons.mp h
    rw [String.join_cons]
    exact hsql.append (ih hparts)

private theorem guardedText_text {ls : List String} (hfeed : ∀ l ∈ ls, '\n' ∉ l.toList)
    (h : Guarded ((ls.map String.toList).filter (¬ "--".toList <+: ·))) : GuardedText (text ls) :=
  ⟨ls.map String.toList, toList_text ls, List.forall_mem_map.mpr hfeed, h⟩

private theorem guardedText_of_loose {ls : List String} (h : ∀ l ∈ ls, Loose l.toList) :
    GuardedText (text ls) :=
  guardedText_text (fun l hl => (h l hl).tame.feed)
    (guarded_of_loose fun l hl => List.forall_mem_map.mpr h l (List.mem_of_mem_filter hl))

private theorem guardedText_block {ls : List String} (h : ∀ l ∈ ls, Tame l.toList) :
    GuardedText (text (blockLines ls)) := by
  have hopening : ¬ "--".toList <+: opening := by decide
  have hclosing : ¬ "--".toList <+: closing := by decide
  refine guardedText_text ?_ ?_
  · refine List.forall_mem_cons.mpr ⟨by decide, List.forall_mem_append.mpr ⟨?_, by decide⟩⟩
    exact fun l hl => (h l hl).feed
  · have hlines : (blockLines ls).map String.toList =
        opening :: (ls.map String.toList ++ [closing]) := by
      rw [blockLines, List.map_cons, List.map_append, List.map_singleton]
      rfl
    rw [hlines, List.filter_cons_of_pos (by simpa using hopening), List.filter_append,
      List.filter_cons_of_pos (by simpa using hclosing)]
    exact guarded_block fun l hl => List.forall_mem_map.mpr h l (List.mem_of_mem_filter hl)

private theorem guardedText_comments {ls : List String}
    (h : ∀ l ∈ ls, '\n' ∉ l.toList ∧ "--".toList <+: l.toList) : GuardedText (text ls) := by
  refine guardedText_text (fun l hl => (h l hl).1) ?_
  have hnone : (ls.map String.toList).filter (¬ "--".toList <+: ·) = [] :=
    List.filter_eq_nil_iff.mpr (List.forall_mem_map.mpr fun l hl => by simpa using (h l hl).2)
  rw [hnone]
  exact guarded_nil

/-- Every line of a comment starts with the two dashes. -/
theorem comments_textLines (t : String) : ∀ l ∈ textLines (.comment t),
    '\n' ∉ l.toList ∧ "--".toList <+: l.toList := by
  refine List.forall_mem_map.mpr fun l hl => ⟨?_, ?_⟩
  · have hfeed := (not_mem_of_mem_lines (List.mem_of_mem_filter hl)).1
    simpa using hfeed
  · rw [String.toList_append]
    exact List.prefix_append_of_prefix (by decide)

private theorem guardedText_render {s : Statement} (h : s.Safe) : GuardedText s.render := by
  rw [render_eq_text]
  cases s with
  | comment t => exact guardedText_comments (comments_textLines t)
  | createTable t => exact guardedText_of_loose (loose_createTable h)
  | addColumn table c => exact guardedText_of_loose (loose_addColumn h.1 h.2)
  | addForeignKey k => exact guardedText_block (tame_foreignKeyLines h)
  | replacePrimaryKey table columns =>
    obtain ⟨htable, hkey, hcolumns⟩ := h
    exact guardedText_block (tame_primaryKeyLines htable hkey hcolumns)
  | createIndex i => exact guardedText_of_loose (loose_createIndex h)

private theorem guardedText_blank : GuardedText (text [""]) :=
  guardedText_of_loose (List.forall_mem_singleton.mpr (Or.inl breakable_lacks_alter.nil))

private theorem guardedText_renderBlock {statements : List Statement} (h : ∀ s ∈ statements, s.Safe) :
    GuardedText (renderBlock statements) :=
  (guardedText_join (List.forall_mem_map.mpr fun s hs => guardedText_render (h s hs))).append
    guardedText_blank

private theorem guardedText_blocks {blocks : List (List Statement)} (h : ∀ s ∈ blocks.flatten, s.Safe) :
    GuardedText (String.join (blocks.map renderBlock)) :=
  guardedText_join (List.forall_mem_map.mpr fun _ hblock =>
    guardedText_renderBlock fun s hs => h s (List.mem_flatten_of_mem hblock hs))

def bannerLines (s : Statistics) (stamp : Moment) : List String :=
  ["-- Generated from class diagram", "-- Date: " ++ stamp.toText,
    "-- Classes: " ++ toString s.classCount ++ ", Relationships: " ++ toString s.relationshipCount]

def trailerLines (s : Statistics) : List String :=
  ["-- End of generated script", "-- Total tables: " ++ toString s.tableCount,
    "-- Total relationships processed: " ++ toString s.relationshipCount]

/-- A banner is its lines and an empty one. -/
theorem banner_eq_text (s : Statistics) (stamp : Moment) :
    banner s stamp = text (bannerLines s stamp) ++ text [""] := by
  have htitle : "-- Generated from class diagram\n-- Date: " =
      "-- Generated from class diagram" ++ ("\n" ++ "-- Date: ") := by decide
  have hcount : "\n-- Classes: " = "\n" ++ "-- Classes: " := by decide
  have hblank : "\n\n" = "\n" ++ "\n" := by decide
  unfold banner bannerLines
  simp only [text_cons, text_nil, htitle, hcount, hblank, String.append_assoc, String.empty_append,
    String.append_empty]

/-- A trailer is its lines. -/
theorem trailer_eq_text (s : Statistics) : trailer s = text (trailerLines s) := by
  have htitle : "-- End of generated script\n-- Total tables: " =
      "-- End of generated script" ++ ("\n" ++ "-- Total tables: ") := by decide
  have hcount : "\n-- Total relationships processed: " =
      "\n" ++ "-- Total relationships processed: " := by decide
  unfold trailer trailerLines
  simp only [text_cons, text_nil, htitle, hcount, String.append_assoc, String.append_empty]

/-- A banner is made of comments. -/
theorem comments_bannerLines (s : Statistics) (stamp : Moment) :
    ∀ l ∈ bannerLines s stamp, '\n' ∉ l.toList ∧ "--".toList <+: l.toList := by
  simp only [bannerLines, List.forall_mem_cons, String.toList_append, List.mem_append, not_or,
    List.append_assoc]
  exact ⟨by decide, ⟨⟨by decide, stamp.feed_toText⟩, List.prefix_append_of_prefix (by decide)⟩,
    ⟨⟨by decide, feed_of_plain (plain_toString _), by decide, feed_of_plain (plain_toString _)⟩,
      List.prefix_append_of_prefix (by decide)⟩, List.forall_mem_nil _⟩

/-- A trailer is made of comments. -/
theorem comments_trailerLines (s : Statistics) :
    ∀ l ∈ trailerLines s, '\n' ∉ l.toList ∧ "--".toList <+: l.toList := by
  simp only [trailerLines, List.forall_mem_cons, String.toList_append, List.mem_append, not_or]
  exact ⟨by decide,
    ⟨⟨by decide, feed_of_plain (plain_toString _)⟩, List.prefix_append_of_prefix (by decide)⟩,
    ⟨⟨by decide, feed_of_plain (plain_toString _)⟩, List.prefix_append_of_prefix (by decide)⟩,
    List.forall_mem_nil _⟩

private theorem guardedText_banner (s : Statistics) (stamp : Moment) : GuardedText (banner s stamp) := by
  rw [banner_eq_text]
  exact (guardedText_comments (comments_bannerLines s stamp)).append guardedText_blank

private theorem guardedText_trailer (s : Statistics) : GuardedText (trailer s) := by
  rw [trailer_eq_text]
  exact guardedText_comments (comments_trailerLines s)

private theorem guardedText_assemble {tables : List (List Statement)} {applications : List RuleApplication}
    (s : Statistics) (stamp : Option Moment) (htables : ∀ st ∈ tables.flatten, st.Safe)
    (happlications : ∀ a ∈ applications, ∀ st ∈ a.statements, st.Safe) :
    GuardedText (assemble tables applications s stamp) := by
  have hbody := (guardedText_blocks htables).append
    (guardedText_join (List.forall_mem_map.mpr fun a ha => guardedText_renderBlock (happlications a ha)))
  cases stamp with
  | none => exact hbody
  | some m => exact ((guardedText_banner s m).append hbody).append (guardedText_trailer s)

end Script

/-- Without its comments a generated script has every statement behind a guard. -/
theorem Diagram.script_guarded (d : Diagram) (options : Options) (stamp : Moment) :
    Guarded (codeLines (d.generate options stamp).sql) :=
  (guardedText_assemble _ _ (fun _ hst => safe_of_mem_tableBlocks hst)
    (fun _ ha _ hst => safe_of_mem_applications ha hst)).codeLines

end SchemaSynth
