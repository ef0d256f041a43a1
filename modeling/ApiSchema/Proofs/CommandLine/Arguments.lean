/-
Arguments that ask for a conversion.

Every conversion can be asked for: its request is written as options, each with its
value behind it, and reading them gives the request back.  A value may be any text, also
one that looks like an option, because an option that needs a value takes whatever comes
next.  Only paths with a zero character cannot be given.
-/
import ApiSchema.CommandLine.Request
import ApiSchema.Proofs.Result

namespace ApiSchema.CommandLine

variable {settings : List (String × String)}

/-! ### Options with values -/

/-- Options as arguments, each with its value behind it. -/
def settingArguments (settings : List (String × String)) : List String :=
  settings.flatMap fun e => [e.1, e.2]

/-- Options as they are used. -/
def occurrences (settings : List (String × String)) : List Occurrence :=
  settings.map fun e => .setting e.1 e.2

/-- The argument is an option of the table that takes the next argument as its value. -/
structure OptionTable.Takes (t : OptionTable) (option : String) : Prop where
  looks : isOption option = true
  ends : option ≠ "--"
  pending : t.readOption option = .ok (.pending option)

theorem OptionTable.read_settingArguments {t : OptionTable}
    (h : ∀ e ∈ settings, t.Takes e.1) :
    t.read (settingArguments settings) = .ok (occurrences settings, []) := by
  induction settings with
  | nil => rfl
  | cons e settings ih =>
    obtain ⟨⟨hlooks, hends, hpending⟩, hrest⟩ := List.forall_mem_cons.mp h
    have hargs : settingArguments (e :: settings) = e.1 :: e.2 :: settingArguments settings := rfl
    rw [hargs, read, if_neg hends, if_pos hlooks, hpending]
    show (t.read (settingArguments settings) >>= fun found =>
      .ok (Occurrence.setting e.1 e.2 :: found.1, found.2)) = _
    rw [ih hrest]
    rfl

theorem valuesOf_occurrences (option : String) :
    valuesOf option (occurrences settings) =
      (settings.filter fun e => e.1 = option).map Prod.snd := by
  induction settings with
  | nil => rfl
  | cons e settings ih =>
    have hcons : occurrences (e :: settings) = .setting e.1 e.2 :: occurrences settings := rfl
    rw [valuesOf] at ih ⊢
    by_cases hoption : e.1 = option
    · simp [hcons, hoption, ih]
    · simp [hcons, hoption, ih]

/-! ### Conversions -/

/-- The options of a conversion. -/
def conversionSettings (request : ConversionRequest) : List (String × String) :=
  ("--document", request.document) :: (request.schemas.map fun name => ("--schema", name)) ++
    (request.outputDirectory.toList.map fun folder => ("--output-dir", folder)) ++
    request.settings.toList.map fun path => ("--config", path)

/-- The arguments that ask for a conversion. -/
def conversionArguments (request : ConversionRequest) : List String :=
  CommandName.convert.text :: settingArguments (conversionSettings request)

theorem takes_of_mem_conversionSettings {request : ConversionRequest} :
    ∀ e ∈ conversionSettings request, (commandTable .convert).Takes e.1 := by
  have hdocument : (commandTable .convert).Takes "--document" := ⟨by decide, by decide, rfl⟩
  have hschema : (commandTable .convert).Takes "--schema" := ⟨by decide, by decide, rfl⟩
  have hfolder : (commandTable .convert).Takes "--output-dir" := ⟨by decide, by decide, rfl⟩
  have hconfig : (commandTable .convert).Takes "--config" := ⟨by decide, by decide, rfl⟩
  simp [conversionSettings, or_imp, forall_and, hdocument, hschema, hfolder, hconfig]

/-- Options with values ask for no help. -/
theorem findSome?_informs?_occurrences (command : Option CommandName) :
    (occurrences settings).findSome? (informs? command) = none := by
  rw [List.findSome?_eq_none_iff]
  intro o ho
  obtain ⟨e, -, rfl⟩ := List.mem_map.mp ho
  rfl

/-- The options of a request have its fields as their values. -/
theorem valuesOf_conversionSettings (request : ConversionRequest) :
    valuesOf "--document" (occurrences (conversionSettings request)) = [request.document] ∧
      valuesOf "--schema" (occurrences (conversionSettings request)) = request.schemas ∧
      valuesOf "--output-dir" (occurrences (conversionSettings request)) =
        request.outputDirectory.toList ∧
      valuesOf "--config" (occurrences (conversionSettings request)) =
        request.settings.toList := by
  simp [valuesOf_occurrences, conversionSettings, List.filter_map, Function.comp_def]

theorem getLast?_toList (value : Option String) : value.toList.getLast? = value := by
  cases value <;> rfl

theorem buildCommand_conversionSettings (request : ConversionRequest) :
    buildCommand (occurrences (conversionSettings request)) .convert = .ok (.convert request) := by
  obtain ⟨hdocument, hschemas, hfolder, hconfig⟩ := valuesOf_conversionSettings request
  simp [buildCommand, required, valueOf?, hdocument, hschemas, hfolder, hconfig, getLast?_toList]

/-- The paths of a request. -/
def paths (request : ConversionRequest) : List String :=
  request.document :: (request.outputDirectory.toList ++ request.settings.toList)

theorem checkPaths_conversionSettings {request : ConversionRequest}
    (h : ∀ path ∈ paths request, '\x00' ∉ path.toList) :
    checkPaths .convert (occurrences (conversionSettings request)) = .ok () := by
  obtain ⟨hdocument, -, hfolder, hconfig⟩ := valuesOf_conversionSettings request
  have hpaths : ((pathOptions .convert).filterMap fun option =>
      valueOf? option (occurrences (conversionSettings request))) = paths request := by
    simp only [pathOptions, valueOf?, List.filterMap_cons, List.filterMap_nil, hdocument, hfolder,
      hconfig, getLast?_toList, paths]
    cases request.outputDirectory <;> cases request.settings <;> rfl
  rw [checkPaths, hpaths, if_neg]
  simpa using h

/-- **Every conversion can be asked for** whose paths hold no zero character. -/
theorem readArguments_conversionArguments {request : ConversionRequest}
    (h : ∀ path ∈ paths request, '\x00' ∉ path.toList) :
    readArguments (conversionArguments request) = .ok (.run false (.convert request)) := by
  have hoptions : readOptions (some .convert) (commandTable .convert)
      (settingArguments (conversionSettings request)) =
        .ok (occurrences (conversionSettings request), []) := by
    rw [readOptions, OptionTable.read_settingArguments takes_of_mem_conversionSettings]
    rfl
  have hcommand : readCommand false .convert (settingArguments (conversionSettings request)) =
      .ok (.run false (.convert request)) := by
    have hinforms : (occurrences (conversionSettings request)).findSome? (informs? _) = none :=
      findSome?_informs?_occurrences (some .convert)
    simp only [readCommand, hoptions, hinforms, checkPaths_conversionSettings h,
      buildCommand_conversionSettings, bind, Except.bind]
    rfl
  -- The name of the command ends the options of the program.
  have hprogram : programTable.read (conversionArguments request) =
      .ok ([], conversionArguments request) := by
    rw [conversionArguments, OptionTable.read, if_neg (by decide), if_neg (by decide),
      if_neg (by decide)]
  have hread : readProgram (conversionArguments request) =
      .ok (none, [], conversionArguments request) := by
    rw [readProgram, readOptions, hprogram]
    rfl
  rw [readArguments, hread]
  exact hcommand

end ApiSchema.CommandLine
