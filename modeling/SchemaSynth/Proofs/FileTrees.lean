import SchemaSynth.Files.FileSystem
import SchemaSynth.Proofs.Sequence
import Mathlib.Data.List.Basic

/-! What a change makes of a tree: writing changes the file that the path leads to and no other, a new
directory changes no file. -/
namespace SchemaSynth
def Entry.at? : List String → Entry → Option Entry
  | [], entry => some entry
  | name :: names, .directory entries => (entries.lookup name).bind (Entry.at? names)
  | _ :: _, .file _ => none

def Entry.file? (root : Entry) (names : List String) : Option ByteArray :=
  match root.at? names with
  | some (.file content) => some content
  | _ => none

def Spot.names (spot : Spot) : List String :=
  (spot.way.map (·.1)).reverse

/-- The spots that steps from the root of a tree come to. -/
inductive Spot.InTree (root : Entry) : Spot → Prop
  | start : InTree root ⟨some root, []⟩
  | enter {entries : Entries} {way : List (String × Entries)}
      (inside : InTree root ⟨some (.directory entries), way⟩) (name : String) :
      InTree root ⟨entries.lookup name, (name, entries) :: way⟩

/-- A path leads to the place that names lead to, whether or not anything stands there. -/
def FileSystem.LeadsTo (fs : FileSystem) (path : String) (names : List String) : Prop :=
  ∃ spot, fs.locate path = .ok spot ∧ spot.names = names

variable {root root' : Entry} {entries : Entries} {spot spot' next : Spot} {name path : String}
  {names steps : List String} {fs fs' : FileSystem} {content : ByteArray}

section Entries

private theorem lookup_put_self (name : String) (entry : Entry) (entries : Entries) :
    (entries.put name entry).lookup name = some entry := by
  fun_induction Entries.put name entry entries with
  | case1 => rw [List.lookup_cons_self]
  | case2 => rw [List.lookup_cons_self]
  | case3 n e rest hne ih => rw [List.lookup_cons, beq_false_of_ne (Ne.symm hne), ih]

private theorem lookup_put_of_ne {other : String} (h : other ≠ name) (entry : Entry) (entries : Entries) :
    (entries.put name entry).lookup other = entries.lookup other := by
  fun_induction Entries.put name entry entries with
  | case1 => rw [List.lookup_cons, beq_false_of_ne h]
  | case2 e rest => rw [List.lookup_cons, List.lookup_cons, beq_false_of_ne h]
  | case3 n e rest hne ih => rw [List.lookup_cons, List.lookup_cons, ih]

end Entries

namespace Spot

private theorem names_enter (name : String) (entries : Entries) :
    (spot.enter name entries).names = spot.names ++ [name] := by
  simp [enter, names]

private theorem InTree.at?_append (h : InTree root spot) (rest : List String) :
    root.at? (spot.names ++ rest) = spot.entry.bind (Entry.at? rest) := by
  induction h generalizing rest with
  | start => rfl
  | @enter entries way _ name ih =>
    have hnames : (Spot.mk (entries.lookup name) ((name, entries) :: way)).names =
        (Spot.mk (some (.directory entries)) way).names ++ [name] := by simp [names]
    rw [hnames, List.append_assoc, ih]
    rfl

private theorem InTree.at?_names (h : InTree root spot) : root.at? spot.names = spot.entry := by
  have hat := h.at?_append []
  rw [List.append_nil] at hat
  rw [hat]
  cases spot.entry <;> rfl

private theorem InTree.outer (h : InTree root spot) : InTree root spot.outer := by
  cases h with
  | start => exact .start
  | enter inside name => exact inside

private theorem InTree.step (h : InTree root spot) (hstep : spot.step name = .ok next) : InTree root next := by
  obtain ⟨entry, way⟩ := spot
  match entry, hstep with
  | some (.directory entries), hstep =>
    simp only [Spot.step] at hstep
    split_ifs at hstep <;> obtain rfl := Except.ok.inj hstep
    · exact h
    · exact h.outer
    · exact h.enter name

private theorem InTree.foldlM (h : InTree root spot) (hsteps : steps.foldlM Spot.step spot = .ok next) :
    InTree root next := by
  induction steps generalizing spot with
  | nil =>
    obtain rfl := Except.ok.inj hsteps
    exact h
  | cons name steps ih =>
    rw [List.foldlM_cons] at hsteps
    obtain ⟨spot', hstep, hsteps⟩ := bind_eq_ok.mp hsteps
    exact ih (h.step hstep) hsteps

private theorem at?_put (spot : Spot) (entry : Entry) (rest : List String) :
    (spot.put entry).at? (spot.names ++ rest) = entry.at? rest := by
  obtain ⟨stands, way⟩ := spot
  induction way generalizing stands entry rest with
  | nil => rfl
  | cons x way ih =>
    obtain ⟨name, entries⟩ := x
    have hnames : (Spot.mk stands ((name, entries) :: way)).names ++ rest =
        (Spot.mk stands way).names ++ name :: rest := by simp [names]
    rw [hnames]
    refine (ih _ _ _).trans ?_
    rw [Entry.at?, lookup_put_self]
    rfl

private theorem at?_put_names (spot : Spot) (entry : Entry) : (spot.put entry).at? spot.names = some entry := by
  have hput := spot.at?_put entry []
  rwa [List.append_nil] at hput

private theorem InTree.at?_put_elsewhere (h : InTree root spot) (entry : Entry)
    (hnames : ¬ spot.names <+: names) : (spot.put entry).at? names = root.at? names ∨
      ∃ entries entries', (spot.put entry).at? names = some (.directory entries) ∧
        root.at? names = some (.directory entries') := by
  induction h generalizing entry with
  | start => exact absurd (List.nil_prefix) hnames
  | @enter entries way inside name ih =>
    have hfull : (Spot.mk (entries.lookup name) ((name, entries) :: way)).names =
        (Spot.mk (some (.directory entries)) way).names ++ [name] := by simp [Spot.names]
    by_cases hway : (Spot.mk (some (.directory entries)) way).names <+: names
    · obtain ⟨rest, rfl⟩ := hway
      have hput := at?_put ⟨some (.directory entries), way⟩ (.directory (entries.put name entry)) rest
      have hat := inside.at?_append rest
      cases rest with
      | nil => exact Or.inr ⟨_, _, hput, hat⟩
      | cons n rest =>
        have hne : n ≠ name := by
          rintro rfl
          refine hnames ⟨rest, ?_⟩
          rw [hfull, List.append_assoc, List.singleton_append]
        refine Or.inl (hput.trans (Eq.trans ?_ hat.symm))
        rw [Entry.at?, lookup_put_of_ne hne]
        rfl
    · exact ih (.directory (entries.put name entry)) hway

private theorem InTree.step_names (h' : InTree root' spot') (hnames : spot'.names = spot.names)
    (hstep : spot.step name = .ok next) (hdirectory : ∃ entries, spot'.entry = some (.directory entries)) :
    ∃ next', spot'.step name = .ok next' ∧ InTree root' next' ∧ next'.names = next.names := by
  obtain ⟨entries', hentries'⟩ := hdirectory
  obtain ⟨entry', way'⟩ := spot'
  obtain rfl : entry' = some (.directory entries') := hentries'
  have hnext {next' : Spot} (hstep' : Spot.step ⟨some (.directory entries'), way'⟩ name = .ok next') :=
    h'.step hstep'
  obtain ⟨entry, way⟩ := spot
  match entry, hstep with
  | some (.directory entries), hstep =>
    simp only [Spot.step] at hstep hnext ⊢
    split_ifs at hstep hnext ⊢ <;> obtain rfl := Except.ok.inj hstep
    · exact ⟨_, rfl, h', hnames⟩
    · refine ⟨_, rfl, hnext rfl, ?_⟩
      have hdrop := congrArg List.dropLast hnames
      cases way' <;> cases way <;> simp_all [Spot.outer, Spot.names]
    · refine ⟨_, rfl, hnext rfl, ?_⟩
      rw [names_enter, names_enter, hnames]

private theorem InTree.foldlM_names (h : InTree root spot) (h' : InTree root' spot')
    (hdirectories : ∀ names entries, root.at? names = some (.directory entries) →
      ∃ entries', root'.at? names = some (.directory entries'))
    (hnames : spot'.names = spot.names) (hsteps : steps.foldlM Spot.step spot = .ok next) :
    ∃ next', steps.foldlM Spot.step spot' = .ok next' ∧ InTree root' next' ∧ next'.names = next.names := by
  induction steps generalizing spot spot' with
  | nil =>
    obtain rfl := Except.ok.inj hsteps
    exact ⟨spot', rfl, h', hnames⟩
  | cons name steps ih =>
    rw [List.foldlM_cons] at hsteps
    obtain ⟨u, hstep, hsteps⟩ := bind_eq_ok.mp hsteps
    have hdirectory : ∃ entries, spot'.entry = some (.directory entries) := by
      rw [← h'.at?_names, hnames]
      obtain ⟨entry, way⟩ := spot
      match entry, hstep with
      | some (.directory entries), _ => exact hdirectories _ _ h.at?_names
    obtain ⟨u', hstep', hu', hnames'⟩ := h'.step_names hnames hstep hdirectory
    obtain ⟨next', hsteps', hnext'⟩ := ih (h.step hstep) hu' hnames' hsteps
    refine ⟨next', ?_, hnext'⟩
    rw [List.foldlM_cons]
    exact bind_eq_ok.mpr ⟨u', hstep', hsteps'⟩

end Spot

namespace FileSystem

private theorem inTree_of_locate (h : fs.locate path = .ok spot) : spot.InTree fs.root := by
  obtain ⟨steps, _, h⟩ := bind_eq_ok.mp h
  exact Spot.InTree.start.foldlM h

private theorem directory_put_file (h : spot.InTree root)
    (hfree : ∀ entries, spot.entry ≠ some (.directory entries))
    (hnames : root.at? names = some (.directory entries)) :
    ∃ entries', (spot.put (.file content)).at? names = some (.directory entries') := by
  by_cases hbehind : spot.names <+: names
  · obtain ⟨rest, rfl⟩ := hbehind
    rw [h.at?_append] at hnames
    match hentry : spot.entry, rest with
    | none, _ =>
      rw [hentry] at hnames
      cases hnames
    | some (.file _), [] =>
      rw [hentry] at hnames
      cases hnames
    | some (.file _), _ :: _ =>
      rw [hentry] at hnames
      cases hnames
    | some (.directory entries), _ => exact absurd hentry (hfree entries)
  · rcases h.at?_put_elsewhere (.file content) hbehind with heq | ⟨entries', _, hput, _⟩
    · exact ⟨entries, heq.trans hnames⟩
    · exact ⟨entries', hput⟩

private theorem file?_put_of_ne {entry : Entry} (h : spot.InTree root)
    (hfree : ∀ entries, spot.entry ≠ some (.directory entries))
    (hbare : ∀ name names, entry.at? (name :: names) = none) (hne : names ≠ spot.names) :
    (spot.put entry).file? names = root.file? names := by
  by_cases hbehind : spot.names <+: names
  · obtain ⟨rest, rfl⟩ := hbehind
    obtain ⟨n, rest, rfl⟩ := List.exists_cons_of_ne_nil (show rest ≠ [] by rintro rfl; simp at hne)
    have hnone : root.at? (spot.names ++ n :: rest) = none := by
      rw [h.at?_append]
      match hentry : spot.entry with
      | none => rfl
      | some (.file _) => rfl
      | some (.directory entries) => exact absurd hentry (hfree entries)
    rw [Entry.file?, Entry.file?, Spot.at?_put, hbare, hnone]
  · rcases h.at?_put_elsewhere entry hbehind with heq | ⟨_, _, hput, hat⟩
    · rw [Entry.file?, heq, Entry.file?]
    · rw [Entry.file?, hput, Entry.file?, hat]

private theorem write_eq_ok (h : fs.write path content = .ok fs') :
    ∃ spot, fs.locate path = .ok spot ∧ (∀ entries, spot.entry ≠ some (.directory entries)) ∧
      fs' = { fs with root := spot.put (.file content) } := by
  obtain ⟨steps, hsteps, h⟩ := bind_eq_ok.mp h
  split at h
  · obtain ⟨_, _, h⟩ := bind_eq_ok.mp h
    cases h
  · obtain ⟨spot, hspot, h⟩ := bind_eq_ok.mp h
    refine ⟨spot, bind_eq_ok.mpr ⟨steps, hsteps, hspot⟩, ?_⟩
    split at h
    · cases h
    · rename_i hfree
      refine ⟨fun entries hentry => hfree entries spot.way ?_, (Except.ok.inj h).symm⟩
      rw [← hentry]

/-- After a write the path leads to a file with the content, and all other files are as they were. -/
theorem write_changes_one (h : fs.write path content = .ok fs') :
    ∃ names, fs'.LeadsTo path names ∧ fs'.root.file? names = some content ∧
      ∀ other, other ≠ names → fs'.root.file? other = fs.root.file? other := by
  obtain ⟨spot, hlocate, hfree, rfl⟩ := write_eq_ok h
  have hspot := inTree_of_locate hlocate
  refine ⟨spot.names, ?_, ?_, fun other hother => ?_⟩
  · obtain ⟨steps, hsteps, hfold⟩ := bind_eq_ok.mp hlocate
    obtain ⟨spot', hfold', _, hnames⟩ := Spot.InTree.start.foldlM_names
      .start (fun _ _ => directory_put_file hspot hfree) rfl hfold
    exact ⟨spot', bind_eq_ok.mpr ⟨steps, hsteps, hfold'⟩, hnames⟩
  · rw [Entry.file?, spot.at?_put_names]
  · exact file?_put_of_ne hspot hfree (fun _ _ => rfl) hother

/-- A new directory changes no file. -/
theorem makeDirectory_keeps_files (h : fs.makeDirectory path = .ok fs') (names : List String) :
    fs'.root.file? names = fs.root.file? names := by
  obtain ⟨spot, hlocate, h⟩ := bind_eq_ok.mp h
  split at h
  · cases h
  · rename_i hvacant
    obtain rfl := Except.ok.inj h
    have hspot := inTree_of_locate hlocate
    have hnone : spot.entry = none := by simpa using hvacant
    by_cases hnames : names = spot.names
    · rw [hnames, Entry.file?, spot.at?_put_names, Entry.file?, hspot.at?_names, hnone]
    · exact file?_put_of_ne hspot (by simp [hnone]) (fun _ _ => rfl) hnames

end FileSystem
end SchemaSynth
