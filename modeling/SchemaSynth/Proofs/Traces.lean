import SchemaSynth.CommandLine.Run
import SchemaSynth.Proofs.FileTrees
import Mathlib.Order.RelClasses

/-! What a run of `generate` leaves behind: nothing if it fails, else what it was asked for and no more. -/
namespace SchemaSynth.CommandLine
variable {σ ι α β : Type}

/-- What is seen of a system: the content of its files, which are told apart in some way, the file that a
path leads to, and what was printed. -/
structure View (σ ι : Type) where
  file? : σ → ι → Option ByteArray
  LeadsTo : σ → String → ι → Prop
  printed : σ → String

/-- All files are as they were, and nothing was printed. -/
structure View.Same (view : View σ ι) (s s' : σ) : Prop where
  files : ∀ f, view.file? s' f = view.file? s f
  printed : view.printed s' = view.printed s

/-- All is as it was, and paths that led somewhere still lead there. -/
structure View.Stays (view : View σ ι) (s s' : σ) : Prop extends view.Same s s' where
  leads : ∀ path f, view.LeadsTo s path f → view.LeadsTo s' path f

/-- A text went where it was to go and nothing else changed: it is what the file that a path leads to holds,
or it was printed. -/
inductive View.Receives (view : View σ ι) (text : String) (s s' : σ) : Option String → Prop
  | file {path : String} {f : ι} (leads : view.LeadsTo s' path f)
      (written : view.file? s' f = some text.toUTF8) (others : ∀ g, g ≠ f → view.file? s' g = view.file? s g)
      (printed : view.printed s' = view.printed s) : Receives view text s s' (some path)
  | output (files : ∀ f, view.file? s' f = view.file? s f)
      (printed : view.printed s' = view.printed s ++ text) : Receives view text s s' none

def Keeps (R : σ → σ → Prop) (action : StateM σ α) : Prop :=
  ∀ s, R s (action.run s).2

/-- What a host is relied on for. To ask it for something changes nothing. Its input, its clock, its error
output and new directories have nothing to do with files and the output. A write changes the file that its
path leads to, and nothing if it fails. -/
structure Host.Lawful (host : Host (StateM σ)) (view : View σ ι) : Prop where
  homeName : Keeps Eq host.homeName
  setting? : ∀ key, Keeps Eq (host.setting? key)
  exists? : ∀ path, Keeps Eq (host.exists? path)
  isDirectory : ∀ path, Keeps Eq (host.isDirectory path)
  readFile : ∀ path, Keeps Eq (host.readFile path)
  readInput : Keeps view.Same host.readInput
  now : Keeps view.Same host.now
  report : ∀ text, Keeps view.Stays (host.report text)
  makeDirectory : ∀ path, Keeps view.Same (host.makeDirectory path)
  writeFile : ∀ path text s, ((host.writeFile path text).run s).1 = .ok () →
    view.Receives text s ((host.writeFile path text).run s).2 (some path)
  writeFile_fails : ∀ path text s fault, ((host.writeFile path text).run s).1 = .error fault →
    view.Same s ((host.writeFile path text).run s).2
  print : ∀ text s, view.Receives text s ((host.print text).run s).2 none

section Keeps
variable {R : σ → σ → Prop} {action : StateM σ α}

private theorem Keeps.pure [Std.Refl R] (a : α) : Keeps R (Pure.pure a) :=
  fun s => refl_of R s

private theorem Keeps.bind [IsTrans σ R] {next : α → StateM σ β} (h : Keeps R action)
    (hnext : ∀ a, Keeps R (next a)) :
    Keeps R (action >>= next) :=
  fun s => trans_of R (h s) (hnext _ _)

private theorem Keeps.of_eq [Std.Refl R] (h : Keeps Eq action) : Keeps R action :=
  fun s => h s ▸ refl_of R s

end Keeps

section Runs
variable {s s' : σ} {failure : Failure} {a : α} {x : ExceptT Failure (StateM σ) α}
  {f : α → ExceptT Failure (StateM σ) β} {action : StateM σ (Except FileFault α)}

/-- Behind a success the next step runs in its state. -/
theorem run_bind_of_ok (h : x.run.run s = (.ok a, s')) : (x >>= f).run.run s = (f a).run.run s' := by
  rw [ExceptT.run_bind, StateT.run_bind, h]
  rfl

private theorem run_bind_of_error (h : x.run.run s = (.error failure, s')) :
    (x >>= f).run.run s = (.error failure, s') := by
  rw [ExceptT.run_bind, StateT.run_bind, h]
  rfl

private theorem run_bind_eq_ok {b : β} : (x >>= f).run.run s = (.ok b, s') ↔
    ∃ a s₁, x.run.run s = (.ok a, s₁) ∧ (f a).run.run s₁ = (.ok b, s') := by
  rcases h : x.run.run s with ⟨failure | a, s₁⟩
  · rw [run_bind_of_error h]
    exact iff_of_false nofun nofun
  · rw [run_bind_of_ok h]
    refine ⟨fun h' => ⟨a, s₁, rfl, h'⟩, ?_⟩
    rintro ⟨_, _, ⟨⟩, h'⟩
    exact h'

private theorem run_bind_eq_error : (x >>= f).run.run s = (.error failure, s') ↔
    x.run.run s = (.error failure, s') ∨
      ∃ a s₁, x.run.run s = (.ok a, s₁) ∧ (f a).run.run s₁ = (.error failure, s') := by
  rcases h : x.run.run s with ⟨failure' | a, s₁⟩
  · rw [run_bind_of_error h]
    constructor
    · rintro ⟨⟩
      exact Or.inl rfl
    · rintro (⟨⟨⟩⟩ | ⟨_, _, ⟨⟩, _⟩)
      rfl
  · rw [run_bind_of_ok h]
    constructor
    · exact fun h' => Or.inr ⟨a, s₁, rfl, h'⟩
    · rintro (⟨⟨⟩⟩ | ⟨_, _, ⟨⟩, h'⟩)
      exact h'

/-- Behind an action that cannot fail the next step runs in its state. -/
theorem run_lift_bind (action : StateM σ α) :
    ((liftM action : ExceptT Failure (StateM σ) α) >>= f).run.run s =
      (f (action.run s).1).run.run (action.run s).2 :=
  run_bind_of_ok rfl

/-- An action runs as it is, with its fault made a failure. -/
theorem run_orFail (failing : FileFault → Failure) (action : StateM σ (Except FileFault α)) (s : σ) :
    (orFail failing action).run.run s = ((action.run s).1.mapError failing, (action.run s).2) := by
  rw [orFail, run_lift_bind]
  cases (action.run s).1 <;> rfl

variable {R : σ → σ → Prop}

private theorem keeps_throw [Std.Refl R] (failure : Failure) :
    Keeps R (throw failure : ExceptT Failure (StateM σ) α).run :=
  Keeps.pure _

private theorem keeps_bind [IsTrans σ R] (hx : Keeps R x.run) (hf : ∀ a, Keeps R (f a).run) :
    Keeps R (x >>= f).run := by
  intro s
  have hstep := hx s
  rcases h : x.run.run s with ⟨failure | a, s'⟩ <;> rw [h] at hstep
  · rwa [run_bind_of_error h]
  · rw [run_bind_of_ok h]
    exact trans_of R hstep (hf a s')

private theorem keeps_orFail (failing : FileFault → Failure) (h : Keeps R action) :
    Keeps R (orFail failing action).run := by
  intro s
  rw [run_orFail]
  exact h s

end Runs

section Views
variable {view : View σ ι} {text : String} {output : Option String} {s₁ s₂ s₃ : σ}

instance (view : View σ ι) : IsPreorder σ view.Same where
  refl _ := ⟨fun _ => rfl, rfl⟩
  trans _ _ _ h h' := ⟨fun f => (h'.files f).trans (h.files f), h'.printed.trans h.printed⟩

private theorem View.Receives.after (h : view.Same s₁ s₂) (h' : view.Receives text s₂ s₃ output) :
    view.Receives text s₁ s₃ output := by
  cases h' with
  | file leads written others printed =>
    exact .file leads written (fun g hg => (others g hg).trans (h.files g)) (printed.trans h.printed)
  | output files printed =>
    exact .output (fun f => (files f).trans (h.files f)) (h.printed ▸ printed)

private theorem View.Receives.before (h : view.Receives text s₁ s₂ output) (h' : view.Stays s₂ s₃) :
    view.Receives text s₁ s₃ output := by
  cases h with
  | file leads written others printed =>
    exact .file (h'.leads _ _ leads) ((h'.files _).trans written)
      (fun g hg => (h'.files g).trans (others g hg)) (h'.printed.trans printed)
  | output files printed =>
    exact .output (fun f => (h'.files f).trans (files f)) (h'.printed.trans printed)

end Views

section Parts
variable {m : Type → Type} [Monad m]

def checkOutput (host : Host m) (a : GenerateArguments) : ExceptT Failure m Unit := do
  if let some path := a.output then
    if !a.force && (← host.exists? path) then throw (.outputExists path)

def prepare (host : Host m) (a : GenerateArguments) : ExceptT Failure m Generation := do
  let settings ← loadSettings host
  checkOutput host a
  let imported ← loadDiagram host a.input
  host.report (linesOf imported.skippedLines)
  let stamp ← host.now
  let generation := imported.diagram.generate (a.adjust settings.generator) stamp
  host.report (linesOf (generation.warnings.map ("⚠️  " ++ ·)))
  return generation

def deliver (host : Host m) (a : GenerateArguments) (generation : Generation) : ExceptT Failure m Unit :=
  match a.output with
  | some path => do
    writeOutput host path (a.content generation)
    host.report (linesOf [doneLine generation.statistics path])
  | none => host.print (a.content generation)

/-- A `generate` prepares its generation, and then delivers it. -/
theorem generate_eq [LawfulMonad m] (host : Host m) (a : GenerateArguments) :
    generate host a = prepare host a >>= deliver host a := by
  simp only [generate, prepare, checkOutput, deliver, bind_assoc, pure_bind]
  cases a.output with
  | none => simp
  | some path =>
    simp only [bind_assoc]
    refine bind_congr fun settings => bind_congr fun there => ?_
    split
    · exact ExceptT.ext (by simp)
    · simp

end Parts

section Generate
variable {host : Host (StateM σ)} {view : View σ ι} {s s' : σ} {arguments : List String}
  {a : GenerateArguments}

/-- Loading the settings changes nothing. -/
theorem keeps_loadSettings (lawful : host.Lawful view) : Keeps Eq (loadSettings host).run := by
  have hrest (settings : Settings) : Keeps Eq (do
      let policy ← host.setting? Settings.policyVariable
      let banner ← host.setting? Settings.bannerVariable
      return settings.override policy banner : ExceptT Failure (StateM σ) Settings).run :=
    keeps_bind (lawful.setting? _) fun _ => keeps_bind (lawful.setting? _) fun _ => .pure _
  refine keeps_bind lawful.homeName fun home => keeps_bind (lawful.exists? _) fun there => ?_
  dsimp only
  split
  · refine keeps_bind (keeps_orFail _ (lawful.readFile _)) fun text => ?_
    split
    · exact keeps_bind (.pure _) hrest
    · exact keeps_bind (keeps_throw _) hrest
  · exact keeps_bind (.pure _) hrest

private theorem keeps_checkOutput (lawful : host.Lawful view) (a : GenerateArguments) :
    Keeps Eq (checkOutput host a).run := by
  rw [checkOutput]
  cases a.output with
  | none => exact .pure _
  | some path =>
    refine keeps_bind (lawful.exists? _) fun there => ?_
    split
    · exact keeps_throw _
    · exact .pure _

private theorem keeps_loadDiagram {R : σ → σ → Prop} [IsPreorder σ R] (lawful : host.Lawful view)
    (reads : Keeps R host.readInput) (input : String) : Keeps R (loadDiagram host input).run := by
  have hrest {conclude : Except ImportError Import → ExceptT Failure (StateM σ) Import}
      (hok : ∀ i, conclude (.ok i) = pure i) (herror : ∀ e, conclude (.error e) = throw (.notImported e))
      (imported : Except ImportError Import) : Keeps R (conclude imported).run := by
    cases imported with
    | ok i =>
      rw [hok]
      exact .pure _
    | error e =>
      rw [herror]
      exact keeps_throw _
  refine keeps_bind (.of_eq (lawful.exists? _)) fun there => ?_
  dsimp only
  split
  · exact keeps_bind (keeps_orFail _ reads) fun text => keeps_bind (.pure _) (hrest (fun _ => rfl) fun _ => rfl)
  · split
    · refine keeps_bind (keeps_orFail _ (.of_eq (lawful.readFile _))) fun text => ?_
      exact keeps_bind (.pure _) (hrest (fun _ => rfl) fun _ => rfl)
    · exact keeps_bind (keeps_throw _) (hrest (fun _ => rfl) fun _ => rfl)

private theorem keeps_ensureDirectory (lawful : host.Lawful view) (path : String) :
    Keeps view.Same (ensureDirectory host path) := by
  refine .bind (lawful.makeDirectory path) fun made => ?_
  cases made with
  | ok u => exact .pure _
  | error fault =>
    refine .bind (.of_eq (lawful.isDirectory path)) fun there => ?_
    cases there <;> exact .pure _

private theorem keeps_ensureDirectories (lawful : host.Lawful view) (steps : List String) :
    Keeps view.Same (ensureDirectories host steps) := by
  induction steps with
  | nil => exact .pure _
  | cons step before ih =>
    refine .bind (keeps_ensureDirectory lawful _) fun made => ?_
    split
    · refine .bind ih fun made' => ?_
      cases made' with
      | ok u => exact keeps_ensureDirectory lawful _
      | error fault => exact .pure _
    · exact .pure _

private theorem writeOutput_receives (lawful : host.Lawful view) {path text : String}
    (h : (writeOutput host path text).run.run s = (.ok (), s')) : view.Receives text s s' (some path) := by
  obtain ⟨u, s₁, hdirectories, hwrite⟩ := run_bind_eq_ok.mp h
  have hsame := keeps_orFail (.directoryNotMade path)
    (keeps_ensureDirectories lawful (Path.parentSteps path).reverse) s
  rw [hdirectories] at hsame
  rw [run_orFail] at hwrite
  obtain ⟨hwritten, rfl⟩ := Prod.mk.inj hwrite
  refine .after hsame (lawful.writeFile _ _ _ ?_)
  cases hresult : ((host.writeFile path text).run s₁).1 with
  | ok u => rfl
  | error fault =>
    rw [hresult] at hwritten
    cases hwritten

private theorem writeOutput_fails (lawful : host.Lawful view) {path text : String} {failure : Failure}
    (h : (writeOutput host path text).run.run s = (.error failure, s')) : view.Same s s' := by
  have hsame := keeps_orFail (.directoryNotMade path)
    (keeps_ensureDirectories lawful (Path.parentSteps path).reverse) s
  rcases run_bind_eq_error.mp h with hdirectories | ⟨u, s₁, hdirectories, hwrite⟩ <;>
    rw [hdirectories] at hsame
  · exact hsame
  · rw [run_orFail] at hwrite
    obtain ⟨hwritten, rfl⟩ := Prod.mk.inj hwrite
    cases hresult : ((host.writeFile path text).run s₁).1 with
    | error fault => exact trans_of view.Same hsame (lawful.writeFile_fails _ _ _ _ hresult)
    | ok u =>
      rw [hresult] at hwritten
      cases hwritten

private theorem keeps_prepare (lawful : host.Lawful view) (a : GenerateArguments) :
    Keeps view.Same (prepare host a).run := by
  have hreport (text : String) : Keeps view.Same (host.report text) :=
    fun s => (lawful.report text s).toSame
  refine keeps_bind (.of_eq (keeps_loadSettings lawful)) fun settings => ?_
  refine keeps_bind (.of_eq (keeps_checkOutput lawful a)) fun _ => ?_
  refine keeps_bind (keeps_loadDiagram lawful lawful.readInput a.input) fun imported => ?_
  refine keeps_bind (hreport _) fun _ => keeps_bind lawful.now fun stamp => ?_
  exact keeps_bind (hreport _) fun _ => .pure _

/-- What `generate` finds in a state: its settings, its diagram, and what the clock shows when the diagram was
read and what was left out of it was told. -/
structure Finds (host : Host (StateM σ)) (a : GenerateArguments) (s : σ) (settings : Settings)
    (imported : Import) (stamp : Moment) : Prop where
  loads : ((loadSettings host).run.run s).1 = .ok settings
  reads : ((loadDiagram host a.input).run.run s).1 = .ok imported
  dates : ((do
    let _ ← (loadDiagram host a.input).run
    host.report (linesOf imported.skippedLines)
    host.now : StateM σ Moment).run s).1 = stamp

private theorem prepare_eq_ok (lawful : host.Lawful view) {generation : Generation}
    (h : (prepare host a).run.run s = (.ok generation, s')) :
    ∃ settings imported stamp, Finds host a s settings imported stamp ∧
      generation = imported.diagram.generate (a.adjust settings.generator) stamp := by
  obtain ⟨settings, s₁, hsettings, h⟩ := run_bind_eq_ok.mp h
  have hs₁ := keeps_loadSettings lawful s
  rw [hsettings] at hs₁
  obtain ⟨u, s₂, hcheck, h⟩ := run_bind_eq_ok.mp h
  have hs₂ := keeps_checkOutput lawful a s₁
  rw [hcheck] at hs₂
  obtain rfl : s = s₁ := hs₁
  obtain rfl : s = s₂ := hs₂
  obtain ⟨imported, s₃, himported, h⟩ := run_bind_eq_ok.mp h
  obtain ⟨hgeneration, _⟩ := Prod.mk.inj h
  have hreads : ((loadDiagram host a.input).run.run s).1 = .ok imported := by rw [himported]
  refine ⟨settings, imported, _, ⟨by rw [hsettings], hreads, ?_⟩, (Except.ok.inj hgeneration).symm⟩
  rw [StateT.run_bind, himported]
  rfl

private theorem GenerateArguments.content_of_script (h : a.asJson = false) (g : Generation) :
    a.content g = g.sql := by
  rw [content, h, if_neg Bool.false_ne_true]

/-- With JSON asked for, the content is the response and a line feed. -/
theorem GenerateArguments.content_of_json (h : a.asJson = true) (g : Generation) :
    a.content g = (Delivery.ofGeneration g).encode.indented 0 ++ "\n" := by
  rw [content, h, if_pos rfl]

private theorem generate_fails (lawful : host.Lawful view) {failure : Failure}
    (h : (generate host a).run.run s = (.error failure, s')) : view.Same s s' := by
  rw [generate_eq] at h
  have hprepared := keeps_prepare lawful a s
  rcases run_bind_eq_error.mp h with hprepare | ⟨generation, s₁, hprepare, hdeliver⟩
  · rwa [hprepare] at hprepared
  · rw [hprepare] at hprepared
    refine trans_of view.Same hprepared ?_
    rw [deliver] at hdeliver
    cases houtput : a.output with
    | none =>
      rw [houtput] at hdeliver
      cases hdeliver
    | some path =>
      rw [houtput] at hdeliver
      rcases run_bind_eq_error.mp hdeliver with hwrite | ⟨_, _, _, hreport⟩
      · exact writeOutput_fails lawful hwrite
      · cases hreport

private theorem generate_receives (lawful : host.Lawful view) (h : (generate host a).run.run s = (.ok (), s')) :
    ∃ settings imported stamp, Finds host a s settings imported stamp ∧
      view.Receives (a.content (imported.diagram.generate (a.adjust settings.generator) stamp)) s s' a.output := by
  rw [generate_eq] at h
  obtain ⟨generation, s₁, hprepare, hdeliver⟩ := run_bind_eq_ok.mp h
  have hprepared := keeps_prepare lawful a s
  rw [hprepare] at hprepared
  obtain ⟨settings, imported, stamp, hfinds, rfl⟩ := prepare_eq_ok lawful hprepare
  refine ⟨settings, imported, stamp, hfinds, .after hprepared ?_⟩
  rw [deliver] at hdeliver
  cases houtput : a.output with
  | none =>
    rw [houtput] at hdeliver
    obtain rfl := (Prod.mk.inj hdeliver).2
    exact lawful.print _ s₁
  | some path =>
    rw [houtput] at hdeliver
    obtain ⟨u, s₂, hwrite, hreport⟩ := run_bind_eq_ok.mp hdeliver
    obtain rfl := (Prod.mk.inj hreport).2
    exact (writeOutput_receives lawful hwrite).before (lawful.report _ s₂)

/-- A `generate` that fails leaves all files as they were and prints nothing. One that succeeds writes the
script or, if JSON is asked for, the response with it and a line feed, to the file that is given for the output
and to no other; if none is given, it prints that and leaves all files. -/
theorem generate_leaves_no_trace (lawful : host.Lawful view)
    (parsed : Command.parse? arguments = some (.generate a)) (s : σ) :
    (((run host arguments).run s).1 ≠ 0 → view.Same s ((run host arguments).run s).2) ∧
    (((run host arguments).run s).1 = 0 →
      ∃ settings imported stamp, Finds host a s settings imported stamp ∧
        let g := imported.diagram.generate (a.adjust settings.generator) stamp
        (a.asJson = false → view.Receives g.sql s ((run host arguments).run s).2 a.output) ∧
        (a.asJson = true →
          view.Receives ((Delivery.encode ⟨true, g.sql, g.statistics, g.warnings⟩).indented 0 ++ "\n") s
            ((run host arguments).run s).2 a.output)) := by
  rw [run, parsed]
  dsimp only
  rw [conclude, StateT.run_bind]
  rcases h : (generate host a).run.run s with ⟨failure | u, s'⟩
  · refine ⟨fun _ => ?_, nofun⟩
    exact trans_of view.Same (generate_fails lawful h) (lawful.report _ s').toSame
  · refine ⟨fun hstatus => absurd rfl hstatus, fun _ => ?_⟩
    obtain ⟨settings, imported, stamp, hfinds, hreceives⟩ := generate_receives lawful h
    refine ⟨settings, imported, stamp, hfinds, fun hscript => ?_, fun hjson => ?_⟩
    · rwa [GenerateArguments.content_of_script hscript] at hreceives
    · rwa [GenerateArguments.content_of_json hjson] at hreceives

end Generate

namespace Machine

def view : View Machine (List String) where
  file? machine names := machine.files.root.file? names
  LeadsTo machine path names := machine.files.LeadsTo path names
  printed machine := machine.printed

/-- The host of a machine can be relied on. -/
theorem host_lawful : host.Lawful view where
  homeName _ := rfl
  setting? _ _ := rfl
  exists? _ _ := rfl
  isDirectory _ _ := rfl
  readFile _ _ := rfl
  readInput s := refl_of view.Same s
  now s := refl_of view.Same s
  report _ _ := ⟨⟨fun _ => rfl, rfl⟩, fun _ _ h => h⟩
  makeDirectory path machine := by
    simp only [host, changeFiles, StateT.run]
    cases h : machine.files.makeDirectory path with
    | ok files => exact ⟨FileSystem.makeDirectory_keeps_files h, rfl⟩
    | error fault => exact refl_of view.Same machine
  writeFile path text machine := by
    simp only [host, changeFiles, StateT.run]
    cases h : machine.files.write path text.toUTF8 with
    | ok files =>
      obtain ⟨names, leads, written, others⟩ := FileSystem.write_changes_one h
      exact fun _ => .file leads written others rfl
    | error fault => exact nofun
  writeFile_fails path text machine fault := by
    simp only [host, changeFiles, StateT.run]
    cases h : machine.files.write path text.toUTF8 with
    | ok files => exact nofun
    | error fault => exact fun _ => refl_of view.Same machine
  print _ _ := .output (fun _ => rfl) rfl

def fresh (input : String) : Machine :=
  ⟨⟨.directory [], []⟩, "/", input.toUTF8, [], ⟨0, false⟩, "", ""⟩

def oneClass : String :=
  "[[\x7b\"type\": \"Class\", \"id\": \"a\", \"name\": \"A\"\x7d]]"

private theorem eq_of_finds_fresh {a : GenerateArguments} {text : String} {settings : Settings}
    {imported : Import} {stamp : Moment} (h : Finds host a (fresh text) settings imported stamp) :
    settings = .standard ∧ stamp = ⟨0, false⟩ := by
  have hkept : fresh text = ((loadDiagram host a.input).run.run (fresh text)).2 :=
    keeps_loadDiagram (R := Eq) host_lawful (fun _ => rfl) a.input (fresh text)
  have hdates : ((loadDiagram host a.input).run.run (fresh text)).2.now = stamp := h.dates
  rw [← hkept] at hdates
  exact ⟨(Except.ok.inj h.loads).symm, hdates.symm⟩

private theorem receives_of_reads {f : Import → String} {input text : String} {s s' : Machine}
    {imported : Import} {output : Option String}
    (reads : ((loadDiagram host input).run.run s).1 = .ok imported)
    (htext : ((loadDiagram host input).run.run s).1.toOption.map f = some text)
    (h : view.Receives (f imported) s s' output) : view.Receives text s s' output := by
  rw [reads] at htext
  exact Option.some.inj htext ▸ h

/-- A machine without files refuses an input that is no JSON and is left as it is. For a document of one class
it writes the script to its file, and for one of none it prints the response. -/
theorem fresh_generates :
    host.Lawful view ∧
    Command.parse? ["generate", "-o", "out.sql"] =
      some (.generate ⟨standardInput, some "out.sql", false, false, false, false⟩) ∧
    Command.parse? ["generate", "--json", "--no-banner"] =
      some (.generate ⟨standardInput, none, true, false, true, false⟩) ∧
    ((run host ["generate", "-o", "out.sql"]).run (fresh "")).1 = 1 ∧
    view.Same (fresh "") ((run host ["generate", "-o", "out.sql"]).run (fresh "")).2 ∧
    ((run host ["generate", "-o", "out.sql"]).run (fresh oneClass)).1 = 0 ∧
    view.Receives ("-- Generated from class diagram\n-- Date: 1970-01-01T00:00:00Z\n"
        ++ "-- Classes: 1, Relationships: 0\n\n-- Table for class a\nCREATE TABLE IF NOT EXISTS a (\n"
        ++ "  id BIGSERIAL PRIMARY KEY,\n  data jsonb\n);\n\n-- End of generated script\n"
        ++ "-- Total tables: 1\n-- Total relationships processed: 0\n") (fresh oneClass)
      ((run host ["generate", "-o", "out.sql"]).run (fresh oneClass)).2 (some "out.sql") ∧
    ((run host ["generate", "--json", "--no-banner"]).run (fresh "[[]]")).1 = 0 ∧
    view.Receives ("\x7b\n  \"success\": true,\n  \"sql\": \"\",\n  \"statistics\": \x7b\n"
        ++ "    \"classCount\": 0,\n    \"relationshipCount\": 0,\n    \"tableCount\": 0\n  \x7d\n\x7d\n")
      (fresh "[[]]")
      ((run host ["generate", "--json", "--no-banner"]).run (fresh "[[]]")).2 none := by
  have hscript : Command.parse? ["generate", "-o", "out.sql"] =
      some (.generate ⟨standardInput, some "out.sql", false, false, false, false⟩) := by decide
  have hjson : Command.parse? ["generate", "--json", "--no-banner"] =
      some (.generate ⟨standardInput, none, true, false, true, false⟩) := by decide
  have hfails : ((run host ["generate", "-o", "out.sql"]).run (fresh "")).1 = 1 := by decide +kernel
  have hwrites : ((run host ["generate", "-o", "out.sql"]).run (fresh oneClass)).1 = 0 := by decide +kernel
  have hprints : ((run host ["generate", "--json", "--no-banner"]).run (fresh "[[]]")).1 = 0 := by
    decide +kernel
  refine ⟨host_lawful, hscript, hjson, hfails, ?_, hwrites, ?_, hprints, ?_⟩
  · exact (generate_leaves_no_trace host_lawful hscript (fresh "")).1 (by rw [hfails]; decide)
  · obtain ⟨_, imported, _, hfinds, hreceives, -⟩ :=
      (generate_leaves_no_trace host_lawful hscript (fresh oneClass)).2 hwrites
    obtain ⟨rfl, rfl⟩ := eq_of_finds_fresh hfinds
    refine receives_of_reads (f := fun i => (i.diagram.generate ⟨.warn, true⟩ ⟨0, false⟩).sql) hfinds.reads ?_
      (hreceives rfl)
    decide +kernel
  · obtain ⟨_, imported, _, hfinds, -, hreceives⟩ :=
      (generate_leaves_no_trace host_lawful hjson (fresh "[[]]")).2 hprints
    obtain ⟨rfl, rfl⟩ := eq_of_finds_fresh hfinds
    refine receives_of_reads (f := fun i => let g := i.diagram.generate ⟨.warn, false⟩ ⟨0, false⟩
      (Delivery.encode ⟨true, g.sql, g.statistics, g.warnings⟩).indented 0 ++ "\n") hfinds.reads ?_ (hreceives rfl)
    decide +kernel

end Machine
end SchemaSynth.CommandLine
