import SchemaSynth.Proofs.RequestBoards
import SchemaSynth.Proofs.Traces

/-! The response that `generate` prints, and the one that a request with the same document is answered with:
they differ in the warnings of elements left out, which are only in the latter. -/
namespace SchemaSynth.CommandLine
open Json

private theorem textOfBytes_toUTF8 (s : String) : textOfBytes s.toUTF8 = .ok s := by
  have hvalid : String.fromUTF8? s.toUTF8 = some s := dif_pos s.isValidUTF8
  rw [textOfBytes, hvalid]

private theorem exists?_of_read {fs : FileSystem} {path text : String} (h : fs.read path = .ok text) :
    fs.exists? path = true := by
  obtain ⟨spot, hlocate, hentry⟩ := bind_eq_ok.mp h
  cases hspot : spot.entry with
  | some entry => simp only [FileSystem.exists?, hlocate, hspot, Option.isSome_some]
  | none =>
    rw [hspot] at hentry
    cases hentry

namespace Machine
variable {machine : Machine} {a : GenerateArguments} {arguments : List String} {settings : Settings}
  {input body : String} {imported : Import}

/-- The text of the JSON document that an input stands for: a text on the standard input, or that of a file
whose name does not say that it holds YAML. -/
inductive JsonInput (machine : Machine) : String → String → Prop
  | standard {body : String} (content : textOfBytes machine.input = .ok body) :
      JsonInput machine standardInput body
  | file {name body : String} (named : name ≠ standardInput) (json : Import.isYamlName name = false)
      (content : machine.files.read name = .ok body) : JsonInput machine name body

private theorem loadDiagram_of_json (h : machine.JsonInput input body)
    (himport : Import.ofJson body = .ok imported) :
    (loadDiagram host input).run.run machine = (.ok imported, machine) := by
  rw [loadDiagram, run_lift_bind]
  dsimp only
  cases h with
  | standard content =>
    have hread : (host.readInput.run machine).1 = .ok body := content
    have hrun := run_orFail .unreadableInput host.readInput machine
    rw [hread] at hrun
    rw [if_pos rfl]
    refine (run_bind_of_ok hrun).trans ?_
    rw [pure_bind, himport]
    rfl
  | file named json content =>
    have hread : ((host.readFile input).run machine).1 = .ok body := content
    have hthere : ((host.exists? input).run machine).1 = true := exists?_of_read content
    have hrun := run_orFail (.unreadableFile input) (host.readFile input) machine
    rw [hread] at hrun
    rw [if_neg named, if_pos hthere]
    refine (run_bind_of_ok hrun).trans ?_
    rw [pure_bind, Import.ofNamed, json, if_neg Bool.false_ne_true, himport]
    rfl

private theorem run_generate_printed (unnamed : a.output = none)
    (hsettings : ((loadSettings host).run.run machine).1 = .ok settings)
    (hdiagram : (loadDiagram host a.input).run.run machine = (.ok imported, machine)) :
    let g := imported.diagram.generate (a.adjust settings.generator) machine.now
    (generate host a).run.run machine = (.ok (), { machine with
      printed := machine.printed ++ a.content g
      reported := machine.reported ++ linesOf imported.skippedLines ++
        linesOf (g.warnings.map ("⚠️  " ++ ·)) }) := by
  have hload : (loadSettings host).run.run machine = (.ok settings, machine) :=
    Prod.ext hsettings (keeps_loadSettings host_lawful machine).symm
  have hcheck : checkOutput host a = (pure () : ExceptT Failure (StateM Machine) Unit) := by
    rw [checkOutput, unnamed]
  have hdeliver (g : Generation) : deliver host a g = liftM (host.print (a.content g)) := by
    rw [deliver, unnamed]
  rw [generate_eq, funext hdeliver, prepare, bind_assoc, run_bind_of_ok hload, hcheck, pure_bind, bind_assoc,
    run_bind_of_ok hdiagram]
  rfl

private theorem run_prints_response (parsed : Command.parse? arguments = some (.generate a))
    (asJson : a.asJson = true)
    (unnamed : a.output = none) (hsettings : ((loadSettings host).run.run machine).1 = .ok settings)
    (hdiagram : (loadDiagram host a.input).run.run machine = (.ok imported, machine)) :
    let g := imported.diagram.generate (a.adjust settings.generator) machine.now
    ((run host arguments).run machine).1 = 0 ∧
      ((run host arguments).run machine).2.printed =
        machine.printed ++ ((Delivery.ofGeneration g).encode.indented 0 ++ "\n") := by
  rw [run, parsed]
  dsimp only
  rw [conclude, StateT.run_bind, run_generate_printed unnamed hsettings hdiagram,
    GenerateArguments.content_of_json asJson]
  exact ⟨rfl, rfl⟩

/-- A document with one field of boards, which can be imported, is answered alike by what `generate` prints and
by the response to a request, but for the warnings of elements that the import leaves out: it is only if there
are none that both have the same warnings. -/
theorem printed_warnings_agree_iff {fields : List (String × Value)}
    (parsed : Command.parse? arguments = some (.generate a)) (asJson : a.asJson = true)
    (unnamed : a.output = none) (hsettings : ((loadSettings host).run.run machine).1 = .ok settings)
    (hinput : machine.JsonInput a.input body) (hread : readWritten body = .ok (.object fields))
    (hone : fields.countP Request.isBoards = 1) (himport : Import.ofJson body = .ok imported) :
    ∃ d d' : Delivery,
      ((run host arguments).run machine).1 = 0 ∧
      ((run host arguments).run machine).2.printed = machine.printed ++ (d.encode.indented 0 ++ "\n") ∧
      Response.toRequest body (a.adjust settings.generator) machine.now = .generated d' ∧
      d.success = d'.success ∧ d.sql = d'.sql ∧ d.statistics = d'.statistics ∧
      (d.warnings = d'.warnings ↔ imported.warnings = []) := by
  obtain ⟨hstatus, hprinted⟩ := run_prints_response parsed asJson unnamed hsettings
    (loadDiagram_of_json hinput himport)
  rcases Request.ofJson_or_faults hread hone with ⟨i, hjson, hrequest⟩ | ⟨fault, _, hjson, _⟩
  · obtain rfl : imported = i := Except.ok.inj (himport.symm.trans hjson)
    refine ⟨_, .ofImport imported (a.adjust settings.generator) machine.now, hstatus, hprinted, ?_, rfl, rfl,
      rfl, ?_⟩
    · rw [Response.toRequest, hrequest]
    · rw [Delivery.ofImport]
      dsimp only
      rw [List.self_eq_append_left, List.map_eq_nil_iff]
  · cases himport.symm.trans hjson

private theorem loadSettings_fresh (text : String) :
    ((loadSettings host).run.run (fresh text)).1 = .ok .standard :=
  rfl

private theorem jsonInput_fresh (text : String) : (fresh text).JsonInput standardInput text :=
  .standard (textOfBytes_toUTF8 text)

def jsonArguments : List String :=
  ["generate", "--json", "--no-banner"]

private theorem parse?_jsonArguments :
    Command.parse? jsonArguments = some (.generate ⟨standardInput, none, true, false, true, false⟩) := by
  decide

/-- A document with a null element is answered in both ways, and the warnings differ. -/
theorem nullElement_answers :
    Command.parse? jsonArguments = some (.generate ⟨standardInput, none, true, false, true, false⟩) ∧
    ((loadSettings host).run.run (fresh Response.nullElement)).1 = .ok .standard ∧
    (fresh Response.nullElement).JsonInput standardInput Response.nullElement ∧
    readWritten Response.nullElement = .ok (.object [("elementosPorPizarra", .list [.list [.null]])]) ∧
    [("elementosPorPizarra", Value.list [.list [.null]])].countP Request.isBoards = 1 ∧
    Import.ofJson Response.nullElement = .ok ⟨.ofElements [], 1, [⟨0, 0, .notAnObject "null"⟩]⟩ ∧
    ∃ d d' : Delivery,
      ((run host jsonArguments).run (fresh Response.nullElement)).1 = 0 ∧
      ((run host jsonArguments).run (fresh Response.nullElement)).2.printed =
        "" ++ (d.encode.indented 0 ++ "\n") ∧
      Response.toRequest Response.nullElement ⟨.warn, false⟩ ⟨0, false⟩ = .generated d' ∧
      d.success = d'.success ∧ d.sql = d'.sql ∧ d.statistics = d'.statistics ∧
      (d.warnings = d'.warnings ↔ [ImportWarning.mk 0 0 (.notAnObject "null")] = []) :=
  ⟨parse?_jsonArguments, loadSettings_fresh _, jsonInput_fresh _, Response.readWritten_nullElement, rfl,
    Response.ofJson_nullElement, printed_warnings_agree_iff parse?_jsonArguments rfl rfl (loadSettings_fresh _)
      (jsonInput_fresh _) Response.readWritten_nullElement rfl Response.ofJson_nullElement⟩

/-- The response that is printed for a document with an element that is left out says nothing of it, the one
to a request does. -/
theorem nullElement_left_out_of_printed :
    ∃ d d' : Delivery,
      ((run host jsonArguments).run (fresh Response.nullElement)).1 = 0 ∧
      ((run host jsonArguments).run (fresh Response.nullElement)).2.printed = d.encode.indented 0 ++ "\n" ∧
      Response.toRequest Response.nullElement ⟨.warn, false⟩ ⟨0, false⟩ = .generated d' ∧
      d.warnings = [] ∧ d'.warnings = ["board 0 element 0: expected an object, got null"] := by
  obtain ⟨hstatus, hprinted⟩ := run_prints_response parse?_jsonArguments rfl rfl (loadSettings_fresh _)
    (loadDiagram_of_json (jsonInput_fresh _) Response.ofJson_nullElement)
  refine ⟨.ofGeneration ((Diagram.ofElements []).generate ⟨.warn, false⟩ ⟨0, false⟩),
    .ofImport ⟨.ofElements [], 1, [⟨0, 0, .notAnObject "null"⟩]⟩ ⟨.warn, false⟩ ⟨0, false⟩, hstatus,
    hprinted.trans String.empty_append, ?_, rfl, ?_⟩
  · rcases Request.ofJson_or_faults Response.readWritten_nullElement rfl with
      ⟨i, hjson, hrequest⟩ | ⟨_, _, hjson, _⟩
    · obtain rfl := Except.ok.inj (Response.ofJson_nullElement.symm.trans hjson)
      rw [Response.toRequest, hrequest]
    · cases Response.ofJson_nullElement.symm.trans hjson
  · have hmessage : (ImportWarning.mk 0 0 (.notAnObject "null")).message =
        "board 0 element 0: expected an object, got null" := by decide
    rw [Delivery.ofImport, List.map_singleton, hmessage]
    rfl

end Machine
end SchemaSynth.CommandLine
