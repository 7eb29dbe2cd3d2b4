import SchemaSynth.Proofs.CreatedTables
import SchemaSynth.Schema.Database

/-! Running statements on a database: tables only grow, but for their keys, and a statement whose
effect is there does nothing. -/
namespace SchemaSynth

namespace StoredTable
variable {t u : StoredTable} {c : Column} {k : ForeignKey} {columns : List String}

/-- What the one table has, the other has too. The keys are left open. -/
structure GrownTo (t u : StoredTable) : Prop where
  columns : t.columns ⊆ u.columns
  foreignKeys : t.foreignKeys ⊆ u.foreignKeys
  checks : t.checks ⊆ u.checks

private theorem GrownTo.refl (t : StoredTable) : t.GrownTo t :=
  ⟨List.Subset.refl _, List.Subset.refl _, List.Subset.refl _⟩

private theorem GrownTo.columnNames (h : t.GrownTo u) : t.columnNames ⊆ u.columnNames :=
  List.map_subset _ h.columns

private theorem GrownTo.constraintNames (h : t.GrownTo u) (table : String) :
    t.constraintNames table ⊆ u.constraintNames table := by
  refine List.cons_subset_cons _ (List.append_subset.mpr ⟨?_, ?_⟩)
  · exact List.subset_append_of_subset_left _ (List.map_subset _ h.foreignKeys)
  · exact List.subset_append_of_subset_right _ (List.map_subset _ h.checks)

private theorem grownTo_addColumn (c : Column) (t : StoredTable) : t.GrownTo (t.addColumn c) := by
  unfold addColumn
  split
  · exact .refl t
  · exact ⟨List.subset_append_left _ _, List.Subset.refl _, List.Subset.refl _⟩

private theorem grownTo_addForeignKey (k : ForeignKey) (t : StoredTable) : t.GrownTo (t.addForeignKey k) := by
  unfold addForeignKey
  split
  · exact .refl t
  · exact ⟨List.Subset.refl _, List.subset_append_left _ _, List.Subset.refl _⟩

private theorem grownTo_replaceKey (columns : List String) (t : StoredTable) :
    t.GrownTo (t.replaceKey columns) := by
  unfold replaceKey
  split
  · exact ⟨List.Subset.refl _, List.Subset.refl _, List.Subset.refl _⟩
  · exact .refl t

private theorem mem_columnNames_addColumn (c : Column) (t : StoredTable) :
    c.name ∈ (t.addColumn c).columnNames := by
  unfold addColumn
  split
  · assumption
  · simp [columnNames]

private theorem mem_constraintNames_addForeignKey (k : ForeignKey) (t : StoredTable) :
    k.name ∈ (t.addForeignKey k).constraintNames k.table := by
  unfold addForeignKey
  split
  · assumption
  · simp [constraintNames]

private theorem key_addColumn (c : Column) (t : StoredTable) : (t.addColumn c).key = t.key := by
  unfold addColumn
  split <;> rfl

private theorem key_addForeignKey (k : ForeignKey) (t : StoredTable) : (t.addForeignKey k).key = t.key := by
  unfold addForeignKey
  split <;> rfl

private theorem length_le_covered (h : columns <+: t.key) : columns.length ≤ t.covered columns := by
  have hall : columns.countP (columns.contains ·) = columns.length := by
    rw [List.countP_eq_length]
    exact fun column hc => List.contains_iff_mem.mpr hc
  rw [covered, ← hall]
  exact h.sublist.countP_le

private theorem length_le_covered_replaceKey (columns : List String) (t : StoredTable) :
    columns.length ≤ (t.replaceKey columns).covered columns := by
  unfold replaceKey
  split
  · exact length_le_covered (List.prefix_refl columns)
  · omega

end StoredTable

namespace Statement

def altered? : Statement → Option String
  | .addColumn table _ => some table
  | .addForeignKey k => some k.table
  | .replacePrimaryKey table _ => some table
  | .createIndex i => some i.table
  | _ => none

/-- If both statements replace the key of one table, then the later key starts with the earlier. -/
def KeyGrows (s s' : Statement) : Prop :=
  ∀ table columns columns', s = .replacePrimaryKey table columns →
    s' = .replacePrimaryKey table columns' → columns <+: columns'

end Statement

namespace Database
open StoredTable Statement
variable {db db' : Database} {s s' : Statement} {ss : List Statement} {t : StoredTable}
  {name other : String} {change : StoredTable → StoredTable}

@[simp]
private theorem run_cons (db : Database) (s : Statement) (ss : List Statement) :
    db.run (s :: ss) = (db.exec s).bind (·.run ss) := rfl

private theorem put_self (h : db.tables name = some t) : db.put name t = db := by
  have htables : (fun n => if n = name then some t else db.tables n) = db.tables := by
    funext n
    split
    · rename_i hn
      rw [hn, h]
    · rfl
  rw [put, htables]

private theorem alter_self (h : db.tables name = some t) (hc : change t = t) :
    db.alter name change = some db := by
  rw [alter, h, Option.map_some, hc, put_self h]

private theorem tables_of_alter (h : db.alter name change = some db') (ht : db.tables other = some t) :
    db'.tables other = some (if other = name then change t else t) := by
  obtain ⟨u, hu, rfl⟩ := Option.map_eq_some_iff.mp h
  by_cases ho : other = name
  · subst ho
    obtain rfl := Option.some.inj (ht.symm.trans hu)
    simp [put]
  · simp [put, ho, ht]

/-- Every table stays and grows. Its key stays too, unless the statement is there to replace it. -/
theorem tables_of_exec (h : db.exec s = some db') (ht : db.tables name = some t) :
    ∃ u, db'.tables name = some u ∧ t.GrownTo u ∧
      (u.key = t.key ∨ ∃ columns, s = .replacePrimaryKey name columns ∧ u.key = columns) := by
  have hstays : ∃ u, some t = some u ∧ t.GrownTo u ∧
      (u.key = t.key ∨ ∃ columns, s = .replacePrimaryKey name columns ∧ u.key = columns) :=
    ⟨t, rfl, .refl t, Or.inl rfl⟩
  cases s with
  | comment text =>
    obtain rfl := Option.some.inj h
    rwa [ht]
  | createTable table =>
    obtain rfl := Option.some.inj h
    unfold createTable
    split
    · rwa [ht]
    · rename_i hn
      have hne : name ≠ table.name := by
        rintro rfl
        simp [ht] at hn
      simpa [put, hne, ht] using hstays
  | addColumn table c =>
    rw [tables_of_alter h ht]
    split
    · exact ⟨_, rfl, grownTo_addColumn c t, Or.inl (key_addColumn c t)⟩
    · exact hstays
  | addForeignKey k =>
    rw [tables_of_alter h ht]
    split
    · exact ⟨_, rfl, grownTo_addForeignKey k t, Or.inl (key_addForeignKey k t)⟩
    · exact hstays
  | replacePrimaryKey table columns =>
    rw [tables_of_alter h ht]
    split
    · rename_i hn
      refine ⟨_, rfl, grownTo_replaceKey columns t, ?_⟩
      unfold replaceKey
      split
      · exact Or.inr ⟨columns, by rw [hn], rfl⟩
      · exact Or.inl rfl
    · exact hstays
  | createIndex i =>
    obtain ⟨_, _, rfl⟩ := Option.map_eq_some_iff.mp h
    unfold createIndex
    split <;> exact ht ▸ hstays

/-- No statement drops a table. -/
theorem isSome_tables_of_exec (h : db.exec s = some db') (ht : (db.tables name).isSome) :
    (db'.tables name).isSome := by
  obtain ⟨t, ht⟩ := Option.isSome_iff_exists.mp ht
  obtain ⟨u, hu, _⟩ := tables_of_exec h ht
  exact Option.isSome_of_eq_some hu

private theorem indexes_of_exec (h : db.exec s = some db') (hi : (db.indexes name).isSome) :
    (db'.indexes name).isSome := by
  cases s with
  | comment => exact Option.some.inj h ▸ hi
  | createTable t =>
    obtain rfl := Option.some.inj h
    unfold createTable
    split <;> exact hi
  | createIndex i =>
    obtain ⟨_, _, rfl⟩ := Option.map_eq_some_iff.mp h
    unfold createIndex
    split
    · exact hi
    · by_cases hn : name = i.name
      · simp [hn]
      · simpa [hn] using hi
  | _ =>
    obtain ⟨_, _, rfl⟩ := Option.map_eq_some_iff.mp h
    exact hi

/-- The table that a statement creates is there after it. -/
theorem tables_of_created (h : db.exec s = some db') (hs : s.created? = some name) :
    (db'.tables name).isSome := by
  cases s with
  | createTable t =>
    obtain rfl := Option.some.inj h
    obtain rfl : t.name = name := Option.some.inj hs
    unfold createTable
    split
    · assumption
    · simp [put]
  | _ => cases hs

private theorem exists_exec (h : ∀ table, s.altered? = some table → (db.tables table).isSome) :
    ∃ db', db.exec s = some db' := by
  cases s with
  | comment => exact ⟨_, rfl⟩
  | createTable => exact ⟨_, rfl⟩
  | _ =>
    obtain ⟨t, ht⟩ := Option.isSome_iff_exists.mp (h _ rfl)
    exact ⟨_, Option.map_eq_some_iff.mpr ⟨t, ht, rfl⟩⟩

/-- Statements succeed if the tables that they need are there or are created before. -/
theorem exists_run (h : Follows (fun before s => ∀ table, s.altered? = some table →
    (db.tables table).isSome ∨ Creates before table) ss) : ∃ db', db.run ss = some db' := by
  induction ss generalizing db with
  | nil => exact ⟨db, rfl⟩
  | cons s ss ih =>
    obtain ⟨hs, hss⟩ := follows_cons.mp h
    have hthere : ∀ table, s.altered? = some table → (db.tables table).isSome :=
      fun table ht => (hs table ht).resolve_right (by simp [Creates])
    obtain ⟨db₁, hexec⟩ := exists_exec hthere
    have hrest : Follows (fun before s => ∀ table, s.altered? = some table →
        (db₁.tables table).isSome ∨ Creates before table) ss := by
      refine hss.imp fun before s' hs' table ht => ?_
      rcases hs' table ht with hold | ⟨c, hc, hcreated⟩
      · exact Or.inl (isSome_tables_of_exec hexec hold)
      rcases List.mem_cons.mp hc with rfl | hc
      · exact Or.inl (tables_of_created hexec hcreated)
      · exact Or.inr ⟨c, hc, hcreated⟩
    obtain ⟨db', hrun⟩ := ih hrest
    exact ⟨db', by rw [run_cons, hexec, Option.bind_some, hrun]⟩

def Settled (db : Database) : Statement → Prop
  | .comment _ => True
  | .createTable t => (db.tables t.name).isSome
  | .addColumn table c => ∃ t, db.tables table = some t ∧ c.name ∈ t.columnNames
  | .addForeignKey k => ∃ t, db.tables k.table = some t ∧ k.name ∈ t.constraintNames k.table
  | .replacePrimaryKey table columns =>
    ∃ t, db.tables table = some t ∧ columns.length ≤ t.covered columns
  | .createIndex i => (db.tables i.table).isSome ∧ (db.indexes i.name).isSome

/-- A statement whose effect is there does nothing. -/
theorem Settled.exec_eq (h : db.Settled s) : db.exec s = some db := by
  cases s with
  | comment => rfl
  | createTable t => exact congrArg some (if_pos h)
  | addColumn table c =>
    obtain ⟨t, ht, hc⟩ := h
    exact alter_self ht (if_pos hc)
  | addForeignKey k =>
    obtain ⟨t, ht, hk⟩ := h
    exact alter_self ht (if_pos hk)
  | replacePrimaryKey table columns =>
    obtain ⟨t, ht, hk⟩ := h
    exact alter_self ht (if_neg (Nat.not_lt.mpr hk))
  | createIndex i =>
    obtain ⟨t, ht⟩ := Option.isSome_iff_exists.mp h.1
    exact Option.map_eq_some_iff.mpr ⟨t, ht, if_pos h.2⟩

private theorem settled_of_exec (h : db.exec s = some db') : db'.Settled s := by
  cases s with
  | comment => trivial
  | createTable t => exact tables_of_created h rfl
  | addColumn table c =>
    obtain ⟨t, _, rfl⟩ := Option.map_eq_some_iff.mp h
    exact ⟨_, if_pos rfl, mem_columnNames_addColumn c t⟩
  | addForeignKey k =>
    obtain ⟨t, _, rfl⟩ := Option.map_eq_some_iff.mp h
    exact ⟨_, if_pos rfl, mem_constraintNames_addForeignKey k t⟩
  | replacePrimaryKey table columns =>
    obtain ⟨t, _, rfl⟩ := Option.map_eq_some_iff.mp h
    exact ⟨_, if_pos rfl, length_le_covered_replaceKey columns t⟩
  | createIndex i =>
    obtain ⟨t, ht, rfl⟩ := Option.map_eq_some_iff.mp h
    unfold createIndex
    split
    · rename_i hi
      exact ⟨Option.isSome_of_eq_some ht, hi⟩
    · exact ⟨Option.isSome_of_eq_some ht, by simp⟩

private theorem Settled.exec (h : db.Settled s) (hexec : db.exec s' = some db') (hgrows : s.KeyGrows s') :
    db'.Settled s := by
  cases s with
  | comment => trivial
  | createTable t => exact isSome_tables_of_exec hexec h
  | addColumn table c =>
    obtain ⟨t, ht, hc⟩ := h
    obtain ⟨u, hu, hgrown, _⟩ := tables_of_exec hexec ht
    exact ⟨u, hu, hgrown.columnNames hc⟩
  | addForeignKey k =>
    obtain ⟨t, ht, hk⟩ := h
    obtain ⟨u, hu, hgrown, _⟩ := tables_of_exec hexec ht
    exact ⟨u, hu, hgrown.constraintNames k.table hk⟩
  | replacePrimaryKey table columns =>
    obtain ⟨t, ht, hk⟩ := h
    obtain ⟨u, hu, _, hkey | ⟨columns', rfl, hkey⟩⟩ := tables_of_exec hexec ht
    · exact ⟨u, hu, by rwa [covered, hkey]⟩
    · exact ⟨u, hu, length_le_covered (hkey ▸ hgrows _ _ _ rfl rfl)⟩
  | createIndex i => exact ⟨isSome_tables_of_exec hexec h.1, indexes_of_exec hexec h.2⟩

private theorem Settled.run (h : db.Settled s) (hrun : db.run ss = some db')
    (hgrows : ∀ s' ∈ ss, s.KeyGrows s') :
    db'.Settled s := by
  induction ss generalizing db with
  | nil => exact Option.some.inj hrun ▸ h
  | cons s' ss ih =>
    obtain ⟨db₁, hexec, hrest⟩ := Option.bind_eq_some_iff.mp hrun
    obtain ⟨hs', hss⟩ := List.forall_mem_cons.mp hgrows
    exact ih (h.exec hexec hs') hrest hss

/-- After statements under which keys grow, the effects of all of them are there. -/
theorem settled_of_run (hrun : db.run ss = some db') (hgrows : ss.Pairwise KeyGrows) :
    ∀ s ∈ ss, db'.Settled s := by
  induction ss generalizing db with
  | nil => simp
  | cons s ss ih =>
    obtain ⟨db₁, hexec, hrest⟩ := Option.bind_eq_some_iff.mp hrun
    obtain ⟨hs, hss⟩ := List.pairwise_cons.mp hgrows
    exact List.forall_mem_cons.mpr ⟨(settled_of_exec hexec).run hrest hs, ih hrest hss⟩

/-- Statements whose effects are there do nothing. -/
theorem run_eq_of_settled (h : ∀ s ∈ ss, db.Settled s) : db.run ss = some db := by
  induction ss with
  | nil => rfl
  | cons s ss ih =>
    obtain ⟨hs, hss⟩ := List.forall_mem_cons.mp h
    rw [run_cons, hs.exec_eq, Option.bind_some, ih hss]

end Database
end SchemaSynth
