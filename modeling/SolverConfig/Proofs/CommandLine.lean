import SolverConfig.CommandLine
import SolverConfig.Proofs.Acceptance

/-!
# A run of the program

A request to parse a file comes to what the parse of the loaded tree comes to: nothing is added but
the failures before it and the texts of the report.
-/

namespace SolverConfig

open Vocabulary

-- ---------------------------------------------------------------------------
-- What a request asks for
-- ---------------------------------------------------------------------------

def Kind.Named (s : String) : Kind → Prop
  | .family f => names s f = true
  | .component c => names s c = true

theorem names_family_or_component {s : String} {f : Family} {c : Component}
    (hf : names s f = true) (hc : names s c = true) : False := by
  have h : ∀ f : Family, ∀ c ∈ (all : List Component), ∀ s ∈ spellings f, s ∉ spellings c := by
    intro f
    cases f <;> decide
  exact h f c c.mem_all s (names_iff.mp hf) (names_iff.mp hc)

theorem Kind.find?_eq_some_iff {s : String} {kind : Kind} :
    Kind.find? s = some kind ↔ Kind.Named s kind := by
  unfold Kind.find?
  cases hfamily : Vocabulary.find? Family s with
  | some f =>
    rw [LawfulVocabulary.find?_eq_some_iff] at hfamily
    cases kind with
    | family g =>
      refine ⟨fun h => ?_, fun h => ?_⟩
      · cases h
        exact hfamily
      · rw [LawfulVocabulary.eq_of_names hfamily h]
    | component c =>
      exact ⟨nofun, fun h => (names_family_or_component hfamily h).elim⟩
  | none =>
    rw [LawfulVocabulary.find?_eq_none_iff] at hfamily
    cases kind with
    | family g => simp [Kind.Named, hfamily]
    | component c => simp [Kind.Named, LawfulVocabulary.find?_eq_some_iff]

theorem Kind.find?_eq_none_iff {s : String} :
    Kind.find? s = none ↔ ∀ kind, ¬Kind.Named s kind := by
  simp only [Option.eq_none_iff_forall_ne_some, ne_eq, Kind.find?_eq_some_iff]

namespace ParseRequest

structure Asks (r : ParseRequest) (kind : Kind) (types : Instantiation) : Prop where
  kind : Kind.Named r.kind kind
  value : names r.valueType types.value = true
  index : names r.indexType types.index = true

/-- A request whose names are known, whose file loads and whose tree is parsed gives a builder. -/
inductive Yields (read : String → Except FileError ByteArray) (r : ParseRequest) (kind : Kind)
    (d : Deferred) : Prop
  | intro {types : Instantiation} {tree : Tree} (asks : r.Asks kind types)
      (loaded : Tree.load read r.file = .ok tree)
      (parsed : ((Context.bare r.strictness).parse kind tree types).result = .ok d)

-- ---------------------------------------------------------------------------
-- What may be wrong with a request
-- ---------------------------------------------------------------------------

inductive KindFault (r : ParseRequest) : Failure → Prop
  | intro (unknown : ∀ kind, ¬Kind.Named r.kind kind) : KindFault r (.unknownKind r.kind)

inductive ArgumentFault (α : Type) [Vocabulary α] (key : TypeKey) (s : String) : Failure → Prop
  | intro (unknown : ∀ a : α, names s a = false) :
      ArgumentFault α key s (.types (.unknownType key s))

inductive LoadFault (read : String → Except FileError ByteArray) (r : ParseRequest) :
    Failure → Prop
  | intro {e : LoadError} (failed : Tree.load read r.file = .error e) :
      LoadFault read r (.loading r.file e)

inductive ParseFault (read : String → Except FileError ByteArray) (r : ParseRequest) :
    Failure → Prop
  | intro {kind : Kind} {types : Instantiation} {tree : Tree} {e : ConfigError}
      (asks : r.Asks kind types) (loaded : Tree.load read r.file = .ok tree)
      (failed : ((Context.bare r.strictness).parse kind tree types).result = .error e) :
      ParseFault read r (.parsing r.file e)

/-- What may be wrong with a request, in the order in which it is noticed. -/
def faults (read : String → Except FileError ByteArray) (r : ParseRequest) :
    List (Failure → Prop) :=
  [r.KindFault, ArgumentFault ValueType .valueType r.valueType,
    ArgumentFault IndexType .indexType r.indexType, r.LoadFault read, r.ParseFault read]

section
variable {read : String → Except FileError ByteArray} {r : ParseRequest}

theorem kindFault_of_not_found (h : Kind.find? r.kind = none) (f : Failure) :
    r.KindFault f ↔ f = .unknownKind r.kind := by
  constructor
  · rintro ⟨-⟩
    rfl
  · rintro rfl
    exact .intro (Kind.find?_eq_none_iff.mp h)

theorem not_kindFault {kind : Kind} (h : Kind.find? r.kind = some kind) (f : Failure) :
    ¬r.KindFault f := by
  rintro ⟨hunknown⟩
  exact hunknown kind (Kind.find?_eq_some_iff.mp h)

theorem argumentFault_of_not_found {α : Type} [Vocabulary α] [LawfulVocabulary α] {key : TypeKey}
    {s : String} (h : find? α s = none) (f : Failure) :
    ArgumentFault α key s f ↔ f = .types (.unknownType key s) := by
  constructor
  · rintro ⟨-⟩
    rfl
  · rintro rfl
    exact .intro (LawfulVocabulary.find?_eq_none_iff.mp h)

theorem not_argumentFault {α : Type} [Vocabulary α] [LawfulVocabulary α] {key : TypeKey}
    {s : String} {a : α} (h : find? α s = some a) (f : Failure) : ¬ArgumentFault α key s f := by
  rintro ⟨hunknown⟩
  rw [LawfulVocabulary.find?_eq_some_iff] at h
  exact absurd h (by simp [hunknown a])

theorem loadFault_of_error {e : LoadError} (h : Tree.load read r.file = .error e) (f : Failure) :
    r.LoadFault read f ↔ f = .loading r.file e := by
  constructor
  · rintro ⟨he⟩
    cases h.symm.trans he
    rfl
  · rintro rfl
    exact .intro h

theorem not_loadFault {tree : Tree} (h : Tree.load read r.file = .ok tree) (f : Failure) :
    ¬r.LoadFault read f := by
  rintro ⟨he⟩
  cases h.symm.trans he

theorem ofNames_ok {value index : String} {types : Instantiation} :
    Instantiation.ofNames value index = .ok types ↔
      names value types.value = true ∧ names index types.index = true := by
  rw [← LawfulVocabulary.find?_eq_some_iff, ← LawfulVocabulary.find?_eq_some_iff]
  unfold Instantiation.ofNames
  obtain ⟨v, i⟩ := types
  cases find? ValueType value with
  | none => simp
  | some a => cases find? IndexType index <;> simp

theorem run_of_loaded {kind : Kind} {types : Instantiation} {tree : Tree} (h : r.Asks kind types)
    (hl : Tree.load read r.file = .ok tree) : r.run read =
      ((Context.bare r.strictness).parse kind tree types).result.mapError (.parsing r.file) := by
  simp only [run, Kind.find?_eq_some_iff.mpr h.kind, ofNames_ok.mpr ⟨h.value, h.index⟩, hl]

theorem Asks.unique {kind kind' : Kind} {types types' : Instantiation} (h : r.Asks kind types)
    (h' : r.Asks kind' types') : kind = kind' ∧ types = types' := by
  have hkind := (Kind.find?_eq_some_iff.mpr h.kind).symm.trans (Kind.find?_eq_some_iff.mpr h'.kind)
  have hvalue := LawfulVocabulary.eq_of_names h.value h'.value
  have hindex := LawfulVocabulary.eq_of_names h.index h'.index
  cases types
  cases types'
  exact ⟨Option.some.inj hkind, by simp_all⟩

theorem parseFault_iff {kind : Kind} {types : Instantiation} {tree : Tree} (h : r.Asks kind types)
    (hl : Tree.load read r.file = .ok tree) (f : Failure) : r.ParseFault read f ↔
      ∃ e, ((Context.bare r.strictness).parse kind tree types).result = .error e ∧
        .parsing r.file e = f := by
  constructor
  · rintro ⟨hasks, hloaded, hfailed⟩
    obtain ⟨rfl, rfl⟩ := h.unique hasks
    cases hl.symm.trans hloaded
    exact ⟨_, hfailed, rfl⟩
  · rintro ⟨e, he, rfl⟩
    exact .intro h hl he

/-- A request fails with the first thing that is wrong with it. -/
theorem run_error {f : Failure} : r.run read = .error f ↔ First (r.faults read) f := by
  unfold run faults Instantiation.ofNames
  cases hkind : Kind.find? r.kind with
  | none => rw [First.only (kindFault_of_not_found hkind), Except.error.injEq, eq_comm]
  | some kind =>
    rw [First.skip (not_kindFault hkind)]
    cases hvalue : find? ValueType r.valueType with
    | none => rw [First.only (argumentFault_of_not_found hvalue), Except.error.injEq, eq_comm]
    | some value =>
      rw [First.skip (not_argumentFault hvalue)]
      cases hindex : find? IndexType r.indexType with
      | none => rw [First.only (argumentFault_of_not_found hindex), Except.error.injEq, eq_comm]
      | some index =>
        rw [First.skip (not_argumentFault hindex)]
        cases hload : Tree.load read r.file with
        | error e => rw [First.only (loadFault_of_error hload), Except.error.injEq, eq_comm]
        | ok tree =>
          have hasks : r.Asks kind ⟨value, index⟩ :=
            ⟨Kind.find?_eq_some_iff.mp hkind, names_of_find? hvalue, names_of_find? hindex⟩
          rw [First.skip (not_loadFault hload), First.single, parseFault_iff hasks hload]
          exact mapError_error

theorem run_ok {d : Deferred} : r.run read = .ok d ↔ ∃ kind, r.Yields read kind d := by
  constructor
  · intro h
    unfold run at h
    cases hkind : Kind.find? r.kind with
    | none => simp [hkind] at h
    | some kind =>
      cases htypes : Instantiation.ofNames r.valueType r.indexType with
      | error e => simp [hkind, htypes] at h
      | ok types =>
        obtain ⟨hvalue, hindex⟩ := ofNames_ok.mp htypes
        cases hload : Tree.load read r.file with
        | error e => simp [hkind, htypes, hload] at h
        | ok tree =>
          simp only [hkind, htypes, hload] at h
          exact ⟨kind, .intro ⟨Kind.find?_eq_some_iff.mp hkind, hvalue, hindex⟩ hload
            (mapError_ok.mp h)⟩
  · rintro ⟨kind, ⟨hasks, hloaded, hparsed⟩⟩
    rw [run_of_loaded hasks hloaded, mapError_ok, hparsed]

end

end ParseRequest

-- ---------------------------------------------------------------------------
-- The report
-- ---------------------------------------------------------------------------

def Deferred.boundLine (d : Deferred) (f : Family) : String :=
  "bound " ++ d.info.text ++ " (" ++ f.name ++ ") on " ++ (Executor.reference 0).name

theorem newline_not_mem_text (s : Signature) : '\n' ∉ s.info.text.toList := by
  have hcomponent : ∀ c : Component, '\n' ∉ c.name.toList := by
    intro c
    cases c <;> decide
  have hvalue : ∀ v : ValueType, '\n' ∉ v.name.toList := by
    intro v
    cases v <;> decide
  have hindex : ∀ i : IndexType, '\n' ∉ i.name.toList := by
    intro i
    cases i <;> decide
  have hinfo : s.info.typeName = s.component.name := s.typeName_info
  generalize s.info = info at hinfo
  obtain ⟨name, v?, i?⟩ := info
  subst hinfo
  cases v? <;> cases i? <;> simp [Info.text, hcomponent, hvalue, hindex]

theorem newline_not_mem_boundLine (d : Deferred) (f : Family) :
    '\n' ∉ (d.boundLine f).toList := by
  have hname : '\n' ∉ f.name.toList := by cases f <;> decide
  have hexecutor : '\n' ∉ (Executor.reference 0).name.toList := by decide
  simp [Deferred.boundLine, Deferred.info, newline_not_mem_text, hname, hexecutor]

namespace Failure

/-- A line that tells a cause: the text of the cause behind a label, with a margin after each of its
newlines. -/
def Tells (cause line : String) : Prop :=
  ∃ label margin : String, line = label ++
    String.ofList (cause.toList.flatMap fun c => if c = '\n' then '\n' :: margin.toList else [c])

theorem tells_mapIdx {label : Nat → String} {margin : String} (causes : List String) :
    List.Forall₂ Tells causes (causes.mapIdx fun n cause => label n ++ indented margin cause) := by
  induction causes generalizing label with
  | nil => exact .nil
  | cons cause rest ih =>
    rw [List.mapIdx_cons]
    exact .cons ⟨_, margin, rfl⟩ ih

theorem tells_causeLines (causes : List String) :
    List.Forall₂ Tells causes (causeLines causes) := by
  match causes with
  | [cause] => exact .cons ⟨_, "    ", rfl⟩ .nil
  | [] => exact .nil
  | cause :: cause' :: rest => exact tells_mapIdx _

variable (f : Failure)

theorem report_of_no_causes (h : f.causes = []) : f.report = "Error: " ++ f.message := by
  rw [report, h]

theorem report_of_causes (h : f.causes ≠ []) :
    ∃ lines, List.Forall₂ Tells f.causes lines ∧
      f.report = "Error: " ++ f.message ++ "\n\nCaused by:\n" ++ "\n".intercalate lines := by
  refine ⟨causeLines f.causes, tells_causeLines _, ?_⟩
  unfold report
  split
  · next hno => exact absurd hno h
  · rfl

end Failure

section
variable {read : String → Except FileError ByteArray} {r : ParseRequest} {kind : Kind}
  {d : Deferred}

theorem ParseRequest.Yields.unbound (h : r.Yields read kind d) :
    ∃ s params, d = .unbound s params ∧ s.family = kind.toFamily := by
  obtain ⟨-, -, hparsed⟩ := h
  obtain ⟨entries, rfl⟩ := isMap_of_parse_ok hparsed
  obtain ⟨c, hc⟩ := namesComponent_of_parse_ok rfl hparsed
  have hfamily := family_of_parse_ok rfl hparsed
  obtain ⟨types, params, -, -, -, -, -, -, rfl⟩ := (parse_component_ok hc).mp hparsed
  exact ⟨_, params, rfl, hfamily⟩

theorem summary_of_yields (h : r.Yields read kind d) :
    d.summary = d.familyOutline.pretty ++ "\n" ++ d.boundLine kind.toFamily ++ "\n" := by
  obtain ⟨s, params, rfl, hfamily⟩ := h.unbound
  have hnewline : "\nbound " = "\n" ++ "bound " := rfl
  simp only [Deferred.summary, Deferred.bind, Deferred.boundLine, Factory.signature, Factory.info,
    Factory.family, Factory.executor, Deferred.info, Deferred.signature, hfamily, hnewline,
    String.append_assoc]

variable {arguments : List String} (h : Command.ofArguments? arguments = some (.parse r))
include h

theorem report_of_run_ok (hrun : r.run read = .ok d) :
    report read arguments = .success d.summary := by
  simp only [report, h, hrun]

theorem report_of_run_error {f : Failure} (hrun : r.run read = .error f) :
    report read arguments = .failure f := by
  simp only [report, h, hrun]

theorem code_eq_zero_iff : (report read arguments).code = 0 ↔ ∃ kind d, r.Yields read kind d := by
  rw [exists_comm]
  simp only [← ParseRequest.run_ok]
  cases hrun : r.run read with
  | ok d => simp [report_of_run_ok h hrun, Report.success]
  | error f => simp [report_of_run_error h hrun, Report.failure]

theorem code_ne_zero_iff : (report read arguments).code ≠ 0 ↔ ∃ f, First (r.faults read) f := by
  simp only [← ParseRequest.run_error]
  cases hrun : r.run read with
  | ok d => simp [report_of_run_ok h hrun, Report.success]
  | error f => simp [report_of_run_error h hrun, Report.failure]

end

/-- A run that is to parse a file ends well exactly if the names of the request are known, its file
loads and its tree is parsed. It then prints the builder of the parse, and a line that tells the
component and the types of the builder, the family that is asked for and the reference executor.
Otherwise it fails with the first thing that is wrong with the request: nothing is printed, and the
report opens with that failure and lists its causes. -/
theorem report_parse (read : String → Except FileError ByteArray) {arguments : List String}
    {r : ParseRequest} (h : Command.ofArguments? arguments = some (.parse r)) :
    ((report read arguments).code = 0 ↔ ∃ kind d, r.Yields read kind d) ∧
    (∀ kind d, r.Yields read kind d → r.run read = .ok d ∧
      report read arguments =
        { code := 0
          output := d.familyOutline.pretty ++ "\n" ++ d.boundLine kind.toFamily ++ "\n"
          errors := "" } ∧
        '\n' ∉ (d.boundLine kind.toFamily).toList ∧ d.family = kind.toFamily) ∧
    ((report read arguments).code ≠ 0 ↔ ∃ f, First (r.faults read) f) ∧
    ∀ f, First (r.faults read) f → r.run read = .error f ∧
      report read arguments = { code := 1, output := "", errors := f.report ++ "\n" } ∧
      (f.causes = [] → f.report = "Error: " ++ f.message) ∧
      (f.causes ≠ [] → ∃ lines, List.Forall₂ Failure.Tells f.causes lines ∧
        f.report = "Error: " ++ f.message ++ "\n\nCaused by:\n" ++ "\n".intercalate lines) := by
  refine ⟨code_eq_zero_iff h, fun kind d hd => ?_, code_ne_zero_iff h, fun f hf => ?_⟩
  · have hrun : r.run read = .ok d := ParseRequest.run_ok.mpr ⟨kind, hd⟩
    obtain ⟨s, params, rfl, hfamily⟩ := hd.unbound
    rw [report_of_run_ok h hrun, Report.success, summary_of_yields hd]
    exact ⟨hrun, rfl, newline_not_mem_boundLine _ _, hfamily⟩
  · have hrun : r.run read = .error f := ParseRequest.run_error.mpr hf
    exact ⟨hrun, report_of_run_error h hrun, f.report_of_no_causes, f.report_of_causes⟩

theorem report_parse_residual_norm :
    let read (content : String) : String → Except FileError ByteArray := fun _ => .ok content.toUTF8
    let arguments := ["parse", "--kind", "CriterionFactory", "--value-type=float", "c.json"]
    let r : ParseRequest := ⟨"c.json", "CriterionFactory", "float", "int32", .strict⟩
    Command.ofArguments? arguments = some (.parse r) ∧
      report (read "\x7b\"Type\": \"stop::ResidualNorm\"\x7d") arguments =
        { code := 0
          output := "CriterionFactory(\n    ResidualNormParameters \x7b\n" ++
            "        reduction_factor: 5.9604645e-7,\n        baseline: RhsNorm,\n" ++
            "        _types: PhantomData<fn() -> (f32,)>,\n    \x7d,\n)\n" ++
            "bound ResidualNorm<float32> (CriterionFactory) on reference\n"
          errors := "" } ∧
      report (read "\x7b\"Type\": \"stop::ResidualNorm\", \"baseline\": 1\x7d") arguments =
        { code := 1
          output := ""
          errors := "Error: parsing c.json\n\nCaused by:\n" ++
            "    type mismatch for field 'baseline': expected " ++
            "one of rhs_norm, initial_resnorm, absolute, found integer 1\n" } := by
  intro read arguments r
  have harguments : Command.ofArguments? arguments = some (.parse r) := by decide +kernel
  have hparts : pathParts "c.json" = ["c.json"] := by
    simp +decide [pathParts, String.splitOn, String.splitOnAux]
  have hformat : FileFormat.ofPath? "c.json" = some .json := by
    simp only [FileFormat.ofPath?, FileFormat.fileName?, hparts]
    decide +kernel
  have hasks : r.Asks (.family .criterion) ⟨.float32, .int32⟩ :=
    ⟨names_name Family.criterion, by decide, by decide⟩
  have hload (content : String) (tree : Tree) (h : FileFormat.json.parse content = .ok tree) :
      Tree.load (read content) r.file = .ok tree := by
    have hutf8 : String.fromUTF8? content.toUTF8 = some content := dif_pos content.isValidUTF8
    simp only [Tree.load, r, hformat, read, hutf8, h]
  refine ⟨harguments, ?_, ?_⟩
  · have hloaded := hload "\x7b\"Type\": \"stop::ResidualNorm\"\x7d"
      (.map [("Type", .text "stop::ResidualNorm")]) rfl
    have hyields := ParseRequest.Yields.intro hasks hloaded rfl
    obtain ⟨-, hsuccess, -⟩ := report_parse _ harguments
    obtain ⟨-, hreport, -⟩ := hsuccess _ _ hyields
    rw [hreport]
    decide +kernel
  · have hloaded := hload "\x7b\"Type\": \"stop::ResidualNorm\", \"baseline\": 1\x7d"
      (.map [("Type", .text "stop::ResidualNorm"), ("baseline", .integer 1)]) rfl
    have hrun := (ParseRequest.run_of_loaded hasks hloaded).trans rfl
    obtain ⟨-, -, -, hfailure⟩ := report_parse _ harguments
    obtain ⟨-, hreport, -⟩ := hfailure _ (ParseRequest.run_error.mp hrun)
    rw [hreport]
    decide +kernel

end SolverConfig
