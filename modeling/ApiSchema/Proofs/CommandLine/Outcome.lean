/-
What the program reports.

There are four ways for the program to end by itself, and `Reports` lists them: it
tells about itself, it was misused, a command is done, or a command has failed.  Which
one it is decides the exit code, and with it what is printed and where.

A failed command has printed nothing yet, and most of them have only looked at files.
Two commands write.  The scaffold is written in one step, which is taken or not.  A
conversion writes into a directory step by step, and only there a refusal comes too
late to leave the files as they were.
-/
import ApiSchema.CommandLine.Outcome
import ApiSchema.Proofs.Conversion.Failure
import ApiSchema.Proofs.Json.Printed
import ApiSchema.Proofs.Settings.Scaffold

namespace ApiSchema

namespace CommandLine

open Text (withoutControls)

variable {args : List String} {s t : Store} {command : Command} {verbose : Bool}
  {cause : CommandError} {outcome : Outcome}

/-! ### Commands that fail -/

theorem unchanged_of_writeScaffold {path : String} {failure : Failure ScaffoldError}
    (h : Yields (Settings.writeScaffold path) s (.error failure) t) : t = s := by
  cases Settings.ends_of_writeScaffold h with
  | zero | refused | present => rfl

/-- A conversion is done, and then what it has yielded is printed. -/
theorem yields_perform_convert_iff [Loader] {request : ConversionRequest}
    {r : Except (Failure CommandError) String} :
    Yields ((Command.convert request).perform : TracedT _ _ String).untraced s r t ↔
      (∃ failure, Yields (Conversion.run request : TracedT _ _ Conversion).untraced s
        (.error failure) t ∧ r = .error (failure.map .conversion)) ∨
      ∃ c, Yields (Conversion.run request : TracedT _ _ Conversion).untraced s (.ok c) t ∧
        r = (conversionText c).mapError .fault := by
  rw [Command.perform, TracedT.untraced_bind, TracedT.untraced_mapError]
  simp only [TracedT.untraced_ofTraced, Traced.result_ofExcept]
  constructor
  · intro h
    rcases Yields.bind_iff.mp h with ⟨e, rfl, hrun⟩ | ⟨c, u, hrun, hprint⟩
    · obtain ⟨failure, hfails, rfl⟩ := Yields.adapt_error_iff.mp hrun
      exact .inl ⟨failure, hfails, rfl⟩
    · obtain ⟨hr, rfl⟩ := Yields.mk_pure_iff.mp hprint
      exact .inr ⟨c, Yields.adapt_ok_iff.mp hrun, hr⟩
  · rintro (⟨failure, hfails, rfl⟩ | ⟨c, hrun, rfl⟩)
    · exact Yields.bind_of_error (Yields.adapt_error_iff.mpr ⟨failure, hfails, rfl⟩)
    · exact Yields.bind_of_ok (Yields.adapt_ok_iff.mpr hrun) (Yields.mk_pure_iff.mpr ⟨rfl, rfl⟩)

/-- A command that fails with an error of its own has changed nothing, but for a conversion into a
directory that the store refuses to create or to fill. -/
theorem unchanged_of_perform [Loader]
    (h : Yields (command.perform : TracedT _ _ String).untraced s (.error (.error cause)) t) :
    t = s ∨ ∃ request folder r, command = .convert request ∧
      Conversion.given request.outputDirectory = some folder ∧
      cause = .conversion (.unwritable r) := by
  cases command with
  | generateConfig output =>
    rw [Command.perform, TracedT.untraced_bind, TracedT.untraced_ofExceptT] at h
    rcases Yields.bind_iff.mp h with ⟨e, -, hwrite⟩ | ⟨place, u, -, hdone⟩
    · obtain ⟨e', hwrite, -⟩ := Yields.adapt_error_iff.mp hwrite
      exact .inl (unchanged_of_writeScaffold hwrite)
    · exact absurd (Yields.pure_iff.mp hdone).1 (by simp)
  | listSchemas path =>
    rw [Command.perform, TracedT.untraced_bind, TracedT.untraced_mapError] at h
    rcases Yields.bind_iff.mp h with ⟨e, -, hload⟩ | ⟨d, u, -, hdone⟩
    · exact .inl (Quiet.adapt (Conversion.quiet_loadDocument path) _ _ _ _ hload)
    · exact absurd (Yields.pure_iff.mp hdone).1 (by simp)
  | convert request =>
    rcases yields_perform_convert_iff.mp h with ⟨failure, hfails, hmap⟩ | ⟨c, -, hprint⟩
    · obtain ⟨own, rfl, rfl⟩ := map_eq_error.mp (Except.error.inj hmap).symm
      rcases Conversion.run_own_error hfails with hts | ⟨folder, r, hfolder, rfl⟩
      · exact .inl hts
      · exact .inr ⟨request, folder, r, rfl, hfolder, rfl⟩
    · -- Printing fails by a fault only.
      obtain ⟨fault, -, hfault⟩ := mapError_eq_error.mp hprint.symm
      simp at hfault

/-! ### Ways to end -/

/-- The program ends by itself, with this outcome and this store. -/
inductive Reports [Loader] (args : List String) (s : Store) : Outcome → Store → Prop
  /-- It tells about itself. -/
  | told {text : String} {request : Request} (reads : readArguments args = .ok request)
    (tells : ∀ verbose command, request ≠ .run verbose command) :
    Reports args s ⟨0, text, ""⟩ s
  /-- The arguments cannot be read. -/
  | misused {misuse : Misuse} (reads : readArguments args = .error (.error misuse)) :
    Reports args s ⟨2, "", withoutControls misuse.text⟩ s
  /-- A command is done. -/
  | done {verbose : Bool} {command : Command} {text log : String} {t : Store}
    (reads : readArguments args = .ok (.run verbose command))
    (yields : Yields (command.perform : TracedT _ _ String).untraced s (.ok text) t)
    (log_eq : verbose = false → log = "") :
    Reports args s ⟨0, withoutControls text, log⟩ t
  /-- A command has failed. -/
  | failed {verbose : Bool} {command : Command} {cause : CommandError} {log : String} {t : Store}
    (reads : readArguments args = .ok (.run verbose command))
    (yields : Yields (command.perform : TracedT _ _ String).untraced s (.error (.error cause)) t)
    (log_eq : verbose = false → log = "") :
    Reports args s ⟨1, "", log ++ unlines [withoutControls cause.message]⟩ t

/-- Running a command is performing it and making an outcome of its result. -/
theorem run_eq_of_yields [Loader] (reads : readArguments args = .ok (.run verbose command))
    {r : Except (Failure CommandError) String}
    (h : Yields (command.perform : TracedT _ _ String).untraced s r t) :
    ∃ lines, ((run args : StateM Store _).run s).run =
      (Outcome.ofTraced verbose ⟨lines, r⟩, t) := by
  refine ⟨((command.perform : TracedT _ (StateM Store) String).run.run s).run.1.lines, ?_⟩
  obtain ⟨rfl, rfl⟩ := Prod.mk.inj h
  rw [run, reads]
  rfl

/-- The program does not end by itself if its command fails by a fault. -/
theorem run_eq_error_iff [Loader] (reads : readArguments args = .ok (.run verbose command))
    {f : Fault} :
    ((run args : StateM Store _).run s).run = (.error f, t) ↔
      Yields (command.perform : TracedT _ _ String).untraced s (.error (.fault f)) t := by
  constructor
  · intro h
    obtain ⟨lines, hrun⟩ := run_eq_of_yields reads (s := s) rfl
    obtain ⟨houtcome, rfl⟩ := Prod.mk.inj (hrun.symm.trans h)
    rw [Outcome.ofTraced] at houtcome
    split at houtcome
    · simp at houtcome
    · simp at houtcome
    · next fault hfault =>
      obtain rfl := Except.error.inj houtcome
      exact Prod.ext hfault rfl
  · intro h
    obtain ⟨lines, hrun⟩ := run_eq_of_yields reads h
    exact hrun

theorem reports_of_run [Loader] (h : ((run args : StateM Store _).run s).run = (.ok outcome, t)) :
    Reports args s outcome t := by
  cases hreads : readArguments args with
  | error failure =>
    rw [run, hreads] at h
    cases failure with
    | error misuse =>
      obtain ⟨houtcome, rfl⟩ := Prod.mk.inj h
      rw [← Except.ok.inj houtcome]
      exact .misused hreads
    | fault fault => exact absurd (Prod.mk.inj h).1 (by simp)
  | ok request =>
    cases request with
    | help command =>
      rw [run, hreads] at h
      obtain ⟨houtcome, rfl⟩ := Prod.mk.inj h
      rw [← Except.ok.inj houtcome]
      exact .told hreads (by simp)
    | version =>
      rw [run, hreads] at h
      obtain ⟨houtcome, rfl⟩ := Prod.mk.inj h
      rw [← Except.ok.inj houtcome]
      exact .told hreads (by simp)
    | run verbose command =>
      obtain ⟨lines, hrun⟩ := run_eq_of_yields hreads (s := s) rfl
      obtain ⟨houtcome, rfl⟩ := Prod.mk.inj (hrun.symm.trans h)
      rw [Outcome.ofTraced] at houtcome
      split at houtcome
      · next text htext =>
        rw [← Except.ok.inj houtcome]
        exact .done hreads (Prod.ext htext rfl) fun hverbose => by simp [hverbose]
      · next cause hcause =>
        rw [← Except.ok.inj houtcome]
        exact .failed hreads (Prod.ext hcause rfl) fun hverbose => by simp [hverbose]
      · simp at houtcome

theorem unlines_singleton (text : String) : unlines [text] = text ++ "\n" := by
  simp [unlines]

/-! ### The program -/

/-- **The exit code says what was printed and what was changed.**  It is 0, 1 or 2.  With 2 nothing
is printed to standard output and nothing is changed.  With 1 a command has failed, nothing is
printed to standard output, and its message without control sequences is the line on standard
error, unless there is a log in front of it; nothing is changed, but for a conversion into a
directory that the store refuses to create or to fill.  With 0 standard error is empty, unless
there is a log. -/
theorem run_reports [Loader] (h : ((run args : StateM Store _).run s).run = (.ok outcome, t)) :
    (outcome.exit = 0 ∨ outcome.exit = 1 ∨ outcome.exit = 2) ∧
      (outcome.exit = 2 → t = s ∧ outcome.stdout = "") ∧
      (outcome.exit = 1 → outcome.stdout = "" ∧ ∃ verbose command cause,
        readArguments args = .ok (.run verbose command) ∧
        Yields (command.perform : TracedT _ _ String).untraced s (.error (.error cause)) t ∧
        (verbose = false → outcome.stderr = withoutControls cause.message ++ "\n" ∧
          ('\x1b' ∉ cause.message.toList → outcome.stderr = cause.message ++ "\n")) ∧
        (t = s ∨ ∃ request folder r, command = .convert request ∧
          Conversion.given request.outputDirectory = some folder ∧
          cause = .conversion (.unwritable r))) ∧
      (outcome.exit = 0 → (∀ command, readArguments args ≠ .ok (.run true command)) →
        outcome.stderr = "") := by
  cases reports_of_run h with
  | told reads tells => simp
  | misused reads => simp
  | @done verbose command text log _ reads yields log_eq =>
    refine ⟨.inl rfl, by simp, by simp, fun _ hquiet => ?_⟩
    cases verbose with
    | false => exact log_eq rfl
    | true => exact absurd reads (hquiet command)
  | @failed verbose command cause log _ reads yields log_eq =>
    refine ⟨.inr (.inl rfl), by simp, fun _ => ⟨rfl, verbose, command, cause, reads, yields, ?_,
      unchanged_of_perform yields⟩, by simp⟩
    intro hverbose
    have hline : log ++ unlines [withoutControls cause.message] =
        withoutControls cause.message ++ "\n" := by
      rw [log_eq hverbose, unlines_singleton, String.empty_append]
    refine ⟨hline, fun hescape => ?_⟩
    rw [hline, Text.withoutControls_of_not_mem hescape]

/-- A document is to be converted with settings. -/
def brightArgs : List String := ["convert", "--document", "d.yaml", "--config", "c.yaml"]

/-- Settings with a prefix that starts with a control sequence. -/
def brightSettings : Store :=
  ⟨[], [(["c.yaml"], .file
    "references: \x7bsupported_prefixes: \x22\\e[1mx\x22\x7d".toUTF8)]⟩

/-- What is printed of it. -/
def brightOutcome : Outcome :=
  ⟨1, "", "references.supported_prefixes entry 'x' must start with '#/'.\n"⟩

theorem run_brightArgs :
    ((run brightArgs : StateM Store _).run brightSettings).run =
      (.ok brightOutcome, ((run brightArgs : StateM Store _).run brightSettings).run.2) := by
  have houtcome : ((run brightArgs : StateM Store _).run brightSettings).run.1.toOption =
      some brightOutcome := by
    decide +kernel
  exact Prod.ext (toOption_eq_some_iff.mp houtcome) rfl

/-- The prefix is refused, and nothing is changed. -/
theorem run_reports_bright :
    ((run brightArgs : StateM Store _).run brightSettings).run =
      (.ok brightOutcome, brightSettings) := by
  obtain ⟨-, -, hfailed, -⟩ := run_reports run_brightArgs
  obtain ⟨-, verbose, command, cause, hreads, -, -, hchanged⟩ := hfailed rfl
  have hcommand : readArguments brightArgs =
      .ok (.run false (.convert { document := "d.yaml", settings := some "c.yaml" })) := by
    decide +kernel
  rw [run_brightArgs, hchanged.resolve_right ?_]
  rintro ⟨request, folder, r, rfl, hfolder, -⟩
  rw [hcommand] at hreads
  simp only [Except.ok.injEq, Request.run.injEq, Command.convert.injEq] at hreads
  rw [← hreads.2] at hfolder
  simp [Conversion.given] at hfolder

/-- The message has a control sequence, which is not printed. -/
theorem run_strips_bright :
    ∃ command cause t, readArguments brightArgs = .ok (.run false command) ∧
      Yields (command.perform : TracedT _ _ String).untraced brightSettings
        (.error (.error cause)) t ∧
      ((run brightArgs : StateM Store _).run brightSettings).run = (.ok brightOutcome, t) ∧
      brightOutcome.exit = 1 ∧ brightOutcome.stderr ≠ cause.message ++ "\n" := by
  have hcommand : readArguments brightArgs =
      .ok (.run false (.convert { document := "d.yaml", settings := some "c.yaml" })) := by
    decide +kernel
  have hfails : Yields (Command.convert
      { document := "d.yaml", settings := some "c.yaml" }).perform.untraced brightSettings
      (.error (.error (.conversion (.settings (.invalid (.areaNotLocal "\x1b[1mx")))))) _ :=
    .of_error? (by decide +kernel)
  obtain ⟨lines, hrun⟩ := run_eq_of_yields hcommand hfails
  refine ⟨_, _, _, hcommand, hfails, ?_, rfl, by decide +kernel⟩
  rw [run_brightArgs, hrun]

end CommandLine

end ApiSchema
