import SchemaSynth.Proofs.Execution
import Mathlib.Data.List.Nodup

/-! What stands in a database was put there by a statement. -/
namespace SchemaSynth

def Statement.columns : Statement → List (String × Column)
  | .createTable t => t.columns.map fun c => (t.name, c)
  | .addColumn table c => [(table, c)]
  | _ => []

namespace Database
open StoredTable
variable {db db' : Database} {s : Statement} {all ss : List Statement} {name : String}
  {t u : StoredTable} {c : Column} {i : Index} {change : StoredTable → StoredTable}

/-- Statements behind others run on what those have left. -/
theorem run_append (db : Database) (ss ss' : List Statement) :
    db.run (ss ++ ss') = (db.run ss).bind (·.run ss') :=
  List.foldlM_append

/-- A table that is there before, or is created, is there in the end. -/
theorem isSome_tables_of_run (hrun : db.run ss = some db')
    (h : (db.tables name).isSome ∨ Statement.Creates ss name) : (db'.tables name).isSome := by
  induction ss generalizing db with
  | nil =>
    obtain rfl := Option.some.inj hrun
    exact h.resolve_right (by simp [Statement.Creates])
  | cons s ss ih =>
    obtain ⟨db₁, hexec, hrest⟩ := Option.bind_eq_some_iff.mp hrun
    rcases h with hold | ⟨st, hst, hcreated⟩
    · exact ih hrest (Or.inl (isSome_tables_of_exec hexec hold))
    · rcases List.mem_cons.mp hst with rfl | hst
      · exact ih hrest (Or.inl (tables_of_created hexec hcreated))
      · exact ih hrest (Or.inr ⟨st, hst, hcreated⟩)

/-- How a statement leaves a table: as it was, newly made, or with its own change made to it. -/
inductive Brought (db : Database) : String → Statement → StoredTable → Prop
  | kept {name : String} {s : Statement} {u : StoredTable} (before : db.tables name = some u) :
      Brought db name s u
  | created {t : Table} (new : db.tables t.name = none) :
      Brought db t.name (.createTable t) (.ofTable t)
  | columnAdded {name : String} {c : Column} {t : StoredTable} (before : db.tables name = some t) :
      Brought db name (.addColumn name c) (t.addColumn c)
  | foreignKeyAdded {k : ForeignKey} {t : StoredTable} (before : db.tables k.table = some t) :
      Brought db k.table (.addForeignKey k) (t.addForeignKey k)
  | keyReplaced {name : String} {columns : List String} {t : StoredTable}
      (before : db.tables name = some t) :
      Brought db name (.replacePrimaryKey name columns) (t.replaceKey columns)

private theorem tables_before_alter {altered : String} (h : db.alter altered change = some db')
    (hu : db'.tables name = some u) :
    db.tables name = some u ∨ name = altered ∧ ∃ t, db.tables name = some t ∧ u = change t := by
  obtain ⟨t, ht, rfl⟩ := Option.map_eq_some_iff.mp h
  by_cases hname : name = altered
  · subst hname
    have hchange : some (change t) = some u := by simpa [put] using hu
    exact Or.inr ⟨rfl, t, ht, (Option.some.inj hchange).symm⟩
  · exact Or.inl (by simpa [put, hname] using hu)

private theorem brought_of_exec (h : db.exec s = some db') (hu : db'.tables name = some u) :
    db.Brought name s u := by
  cases s with
  | comment =>
    obtain rfl := Option.some.inj h
    exact .kept hu
  | createTable t =>
    obtain rfl := Option.some.inj h
    rw [createTable] at hu
    split at hu
    · exact .kept hu
    · rename_i hnew
      by_cases hname : name = t.name
      · subst hname
        obtain rfl : ofTable t = u := by simpa [put] using hu
        exact .created (Option.not_isSome_iff_eq_none.mp hnew)
      · exact .kept (by simpa [put, hname] using hu)
  | addColumn table c =>
    rcases tables_before_alter h hu with hkept | ⟨rfl, t, ht, rfl⟩
    · exact .kept hkept
    · exact .columnAdded ht
  | addForeignKey k =>
    rcases tables_before_alter h hu with hkept | ⟨rfl, t, ht, rfl⟩
    · exact .kept hkept
    · exact .foreignKeyAdded ht
  | replacePrimaryKey table columns =>
    rcases tables_before_alter h hu with hkept | ⟨rfl, t, ht, rfl⟩
    · exact .kept hkept
    · exact .keyReplaced ht
  | createIndex i =>
    obtain ⟨_, _, rfl⟩ := Option.map_eq_some_iff.mp h
    rw [createIndex] at hu
    split at hu <;> exact .kept hu

private theorem Brought.column (h : db.Brought name s u) (hc : c ∈ u.columns) :
    (∃ t, db.tables name = some t ∧ c ∈ t.columns) ∨ (name, c) ∈ s.columns := by
  cases h with
  | kept before => exact Or.inl ⟨u, before, hc⟩
  | created new => exact Or.inr (List.mem_map.mpr ⟨c, hc, rfl⟩)
  | @columnAdded _ added t before =>
    rw [addColumn] at hc
    split at hc
    · exact Or.inl ⟨t, before, hc⟩
    · rcases List.mem_append.mp hc with hc | hc
      · exact Or.inl ⟨t, before, hc⟩
      · exact Or.inr (by simpa [Statement.columns] using hc)
  | @foreignKeyAdded k t before =>
    rw [addForeignKey] at hc
    split at hc <;> exact Or.inl ⟨t, before, hc⟩
  | @keyReplaced _ _ t before =>
    rw [replaceKey] at hc
    split at hc <;> exact Or.inl ⟨t, before, hc⟩

/-- A column of a table was there or was brought by a statement. -/
theorem column_of_run (hrun : db.run ss = some db') (hu : db'.tables name = some u)
    (hc : c ∈ u.columns) :
    (∃ t, db.tables name = some t ∧ c ∈ t.columns) ∨ ∃ s ∈ ss, (name, c) ∈ s.columns := by
  induction ss generalizing db with
  | nil =>
    obtain rfl := Option.some.inj hrun
    exact Or.inl ⟨u, hu, hc⟩
  | cons s ss ih =>
    obtain ⟨db₁, hexec, hrest⟩ := Option.bind_eq_some_iff.mp hrun
    rcases ih hrest with ⟨t, ht, hct⟩ | ⟨s', hs', hcs⟩
    · rcases (brought_of_exec hexec ht).column hct with hold | hnew
      · exact Or.inl hold
      · exact Or.inr ⟨s, List.mem_cons_self, hnew⟩
    · exact Or.inr ⟨s', List.mem_cons_of_mem _ hs', hcs⟩

/-- The constraints of a table, but for its key, are foreign keys that statements add to it, under
different names. -/
structure KeysAdded (statements : List Statement) (name : String) (t : StoredTable) : Prop where
  checks : t.checks = []
  added : ∀ k ∈ t.foreignKeys, k.table = name ∧ .addForeignKey k ∈ statements
  names_nodup : (t.foreignKeys.map (·.name)).Nodup

private theorem KeysAdded.step (h : KeysAdded all name t) (ht : db.tables name = some t)
    (hbrought : db.Brought name s u) (hs : s ∈ all) : KeysAdded all name u := by
  have hsame {t' : StoredTable} (ht' : db.tables name = some t') : t' = t :=
    Option.some.inj (ht'.symm.trans ht)
  cases hbrought with
  | kept before => exact hsame before ▸ h
  | created new =>
    rw [new] at ht
    cases ht
  | columnAdded before =>
    rw [hsame before, addColumn]
    split
    · exact h
    · exact ⟨h.checks, h.added, h.names_nodup⟩
  | @foreignKeyAdded k _ before =>
    rw [hsame before, addForeignKey]
    split
    · exact h
    · rename_i hfree
      refine ⟨h.checks, ?_, ?_⟩
      · exact List.forall_mem_append.mpr ⟨h.added, List.forall_mem_singleton.mpr ⟨rfl, hs⟩⟩
      · rw [List.map_append, List.map_singleton, ← List.concat_eq_append]
        refine h.names_nodup.concat fun hmem => hfree ?_
        exact List.mem_cons_of_mem _ (List.mem_append_left _ hmem)
  | keyReplaced before =>
    rw [hsame before, replaceKey]
    split
    · exact ⟨h.checks, h.added, h.names_nodup⟩
    · exact h

/-- What is known of the keys added to a table stays known while statements run. -/
theorem KeysAdded.run (h : KeysAdded all name t) (ht : db.tables name = some t)
    (hrun : db.run ss = some db') (hss : ss ⊆ all) :
    ∃ u, db'.tables name = some u ∧ KeysAdded all name u := by
  induction ss generalizing db t with
  | nil => exact Option.some.inj hrun ▸ ⟨t, ht, h⟩
  | cons s ss ih =>
    obtain ⟨db₁, hexec, hrest⟩ := Option.bind_eq_some_iff.mp hrun
    obtain ⟨u, hu, _⟩ := tables_of_exec hexec ht
    have hs : s ∈ all := hss List.mem_cons_self
    exact ih (h.step ht (brought_of_exec hexec hu) hs) hu hrest (List.subset_of_cons_subset hss)

def Unconstrained (s : Statement) : Prop :=
  (∃ text, s = .comment text) ∨ ∃ t : Table, s = .createTable t ∧ t.foreignKeys = [] ∧ t.checks = []

/-- Statements without constraints leave tables without constraints. -/
theorem bare_of_run (hrun : db.run ss = some db') (hss : ∀ s ∈ ss, Unconstrained s)
    (hdb : ∀ name t, db.tables name = some t → t.foreignKeys = [] ∧ t.checks = []) :
    ∀ name t, db'.tables name = some t → t.foreignKeys = [] ∧ t.checks = [] := by
  induction ss generalizing db with
  | nil => exact Option.some.inj hrun ▸ hdb
  | cons s ss ih =>
    obtain ⟨db₁, hexec, hrest⟩ := Option.bind_eq_some_iff.mp hrun
    obtain ⟨hs, hss⟩ := List.forall_mem_cons.mp hss
    refine ih hrest hss fun name t ht => ?_
    rcases hs with ⟨text, rfl⟩ | ⟨made, rfl, hkeys, hchecks⟩
    · cases brought_of_exec hexec ht with
      | kept before => exact hdb name t before
    · cases brought_of_exec hexec ht with
      | kept before => exact hdb name t before
      | created new => exact ⟨hkeys, hchecks⟩

private theorem index_of_exec (h : db.exec s = some db') (hi : db'.indexes name = some i) :
    db.indexes name = some i ∨ i.name = name ∧ s = .createIndex i := by
  cases s with
  | comment => exact Or.inl (Option.some.inj h ▸ hi)
  | createTable t =>
    obtain rfl := Option.some.inj h
    rw [createTable] at hi
    split at hi <;> exact Or.inl hi
  | createIndex j =>
    obtain ⟨_, _, rfl⟩ := Option.map_eq_some_iff.mp h
    rw [createIndex] at hi
    split at hi
    · exact Or.inl hi
    · by_cases hname : name = j.name
      · obtain rfl : j = i := by simpa [hname] using hi
        exact Or.inr ⟨hname.symm, rfl⟩
      · exact Or.inl (by simpa [hname] using hi)
  | _ =>
    obtain ⟨_, _, rfl⟩ := Option.map_eq_some_iff.mp h
    exact Or.inl hi

/-- An index was there or was made by a statement. -/
theorem index_of_run (hrun : db.run ss = some db') (hi : db'.indexes name = some i) :
    db.indexes name = some i ∨ i.name = name ∧ .createIndex i ∈ ss := by
  induction ss generalizing db with
  | nil => exact Or.inl (Option.some.inj hrun ▸ hi)
  | cons s ss ih =>
    obtain ⟨db₁, hexec, hrest⟩ := Option.bind_eq_some_iff.mp hrun
    rcases ih hrest with hi₁ | ⟨hname, hmem⟩
    · rcases index_of_exec hexec hi₁ with hold | ⟨hname, rfl⟩
      · exact Or.inl hold
      · exact Or.inr ⟨hname, List.mem_cons_self⟩
    · exact Or.inr ⟨hname, List.mem_cons_of_mem _ hmem⟩

end Database
end SchemaSynth
