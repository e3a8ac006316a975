import MiniPascal.Program.Run
import MiniPascal.Proofs.Dump.Writers

/-!
# What a Run of the Lex Command Gives

A run that is asked for the tokens of a source writes its dump to the standard output, and
all that it has to say besides to the standard error.

- `runLex_of_source`: the result of the command, for every source that can be read;
- `isDetail_of_mem_log`: all that it logs are details, which are not written unless more is asked
  for;
- `run_lex`: what a whole run gives, which depends on the source, the format and the choice of
  positions alone.
-/

namespace MiniPascal

/-! ## §1 What is expected of a source -/

/-- The exit status for a source: one if it cannot be scanned. -/
def exitStatus (source : String) : Nat :=
  match scan source with
  | .ok _ => 0
  | .error _ => 1

/-- What the user is told of a source, without colour: the diagnostic of its error. -/
def complaint (source : String) : String :=
  match scan source with
  | .ok _ => ""
  | .error error => (error.diagnostic source.toList).text false

/-! ## §2 The command -/

theorem TokenDump.error?_write (format : DumpFormat) (positions : Bool) (scanner : Scanner) :
    (TokenDump.write format positions scanner).error? = scanner.readAll.error? := by
  cases format with
  | text => rw [TokenDump.write, TokenDump.text_eq]
  | json => rfl

/-- Either dump of a program has the error of scanning it. -/
theorem TokenDump.error?_write_start (format : DumpFormat) (positions : Bool) (source : String) :
    (TokenDump.write format positions (.start source.toList)).error?
      = match scan source with
        | .ok _ => none
        | .error error => some error := by
  rw [TokenDump.error?_write]
  show (readProgram source).error? = _
  unfold scan Reading.outcome
  cases (readProgram source).error? <;> rfl

section Command

variable {files : Files} {input : ByteArray} {path source : String}

/-- **The result of the command.**  The dump is its output, an error of the scan its only
failure, and the diagnostic of that error is what it tells. -/
theorem runLex_of_source (hreadable : readSource files input path = .ok source)
    (format : DumpFormat) (positions : Bool) :
    let result := runLex files input path format positions
    result.output = (TokenDump.write format positions (.start source.toList)).output ∧
      (if result.failure?.isSome then 1 else 0) = exitStatus source ∧
      ∀ filter, errorText filter false result
        = String.join ((result.log.filter filter.allows).map LogRecord.line)
          ++ complaint source := by
  have hfailure := TokenDump.error?_write_start format positions source
  unfold runLex exitStatus complaint
  simp only [hreadable]
  cases hscanned : scan source with
  | ok tokens =>
    rw [hscanned] at hfailure
    simp only [hfailure]
    exact ⟨trivial, rfl, fun _ => String.append_empty⟩
  | error error =>
    rw [hscanned] at hfailure
    simp only [hfailure]
    -- a lexical error has no line beside its diagnostic
    exact ⟨trivial, rfl, fun _ => String.append_empty⟩

/-- A record that is written only if more is to be logged. -/
def LogRecord.IsDetail (record : LogRecord) : Prop :=
  LogLevel.debug.rank ≤ record.level.rank

theorem Event.isDetail_record (event : Event) : event.record.IsDetail := by
  cases event with
  | token => exact Nat.le_succ 4
  | integerSaturated => exact Nat.le_refl 4
  | realSaturated => exact Nat.le_refl 4
  | openComment => exact Nat.le_refl 4

/-- **All that is logged are details.** -/
theorem isDetail_of_mem_log (hreadable : readSource files input path = .ok source)
    (format : DumpFormat) (positions : Bool) :
    ∀ record ∈ (runLex files input path format positions).log, record.IsDetail := by
  have hevents : ∀ record ∈ (TokenDump.write format positions
      (.start source.toList)).events.map Event.record, record.IsDetail := by
    intro record hinside
    obtain ⟨event, -, rfl⟩ := List.mem_map.mp hinside
    exact event.isDetail_record
  have hstart : (scanning path source).IsDetail := Nat.le_refl 4
  have hcommand : (executing "lex").IsDetail := Nat.le_refl 4
  -- two records of the command itself, then those of the scan
  have hlog := List.forall_mem_cons.mpr ⟨hcommand, List.forall_mem_cons.mpr ⟨hstart, hevents⟩⟩
  unfold runLex
  simp only [hreadable]
  split
  · exact hlog
  · -- a failure adds the record of its own at the end
    rename_i error _
    have hfailed : (scanFailed error).IsDetail := Nat.le_refl 4
    exact List.forall_mem_append.mpr ⟨hlog, List.forall_mem_singleton.mpr hfailed⟩

/-- Unless more is asked for, no details are written. -/
theorem filter_allows_of_isDetail {log : List LogRecord}
    (hdetails : ∀ record ∈ log, record.IsDetail) :
    log.filter (LogFilter.inForce none false).allows = [] := by
  apply List.filter_eq_nil_iff.mpr
  intro record hinside
  have hdetail : LogLevel.debug.rank ≤ record.level.rank := hdetails record hinside
  -- without any setting the filter ends at the level above the details
  show ¬ (LogFilter.upTo .info).allows record = true
  rw [LogFilter.allows_upTo, decide_eq_true_eq, Nat.not_le]
  exact Nat.lt_of_lt_of_le (Nat.lt_succ_self 3) hdetail

end Command

/-! ## §3 Whole runs -/

/-- **An accepted run of the lex command** on a source: the arguments are an invocation of the
command, the settings can be loaded, and the file, or else the standard input, holds the source
as UTF-8. -/
structure IsLexRun (surroundings : Surroundings) (arguments : List String)
    (invocation : Invocation) (settings : Settings) (path : String) (format? : Option DumpFormat)
    (positions : Bool) (source : String) : Prop where
  accepted : Invocation.read surroundings.environment arguments = .ok invocation
  command : invocation.command = .lex path format? positions
  loaded : Settings.load surroundings.files surroundings.settingsPlaces invocation.config?
    = .ok settings
  encoded : if isStandardInput path then surroundings.input = source.toUTF8
    else surroundings.files path = .ok source.toUTF8
  noTerminal : surroundings.terminal = false

namespace IsLexRun

variable {surroundings : Surroundings} {arguments : List String} {invocation : Invocation}
  {settings : Settings} {path : String} {format? : Option DumpFormat} {positions : Bool}
  {source : String}

theorem readable (hrun : IsLexRun surroundings arguments invocation settings path format?
    positions source) :
    readSource surroundings.files surroundings.input path = .ok source := by
  have hencoded := hrun.encoded
  unfold readSource
  -- what is read is the encoding of the source, and decodes to it
  split at hencoded
  · rename_i hinput
    rw [if_pos hinput, hencoded, decodeText_toUTF8]
  · rename_i hfile
    have htext : surroundings.files.readText path = .ok source := by
      rw [Files.readText, hencoded]
      exact decodeText_toUTF8 source
    rw [if_neg hfile, htext]

/-- A run is that of its command, with what the log filter lets through. -/
theorem run_eq (hrun : IsLexRun surroundings arguments invocation settings path format?
    positions source) :
    run surroundings arguments
      = .finished (exitStatus source)
          (TokenDump.write (format?.getD settings.format) (positions || settings.positions)
            (.start source.toList)).output
          (String.join (((runLex surroundings.files surroundings.input path
              (format?.getD settings.format) (positions || settings.positions)).log.filter
              (LogFilter.inForce surroundings.environment.logFilter?
                (invocation.verbose || settings.verbose)).allows).map LogRecord.line)
            ++ complaint source) := by
  obtain ⟨houtput, hstatus, herrors⟩ := runLex_of_source hrun.readable
    (format?.getD settings.format) (positions || settings.positions)
  -- the arguments and the settings are known, so only the command is left to run
  unfold run
  simp only [hrun.accepted]
  unfold runInvocation
  simp only [hrun.loaded, hrun.command, runCommand, hrun.noTerminal, Bool.false_and]
  rw [houtput, hstatus, herrors]

end IsLexRun

/-- **What a run of the lex command gives.**  The dump is its output, in the format that is asked
for or else set, with positions if they are asked for or set.  The exit status is zero just if
the source can be scanned.  What the user is told ends with the diagnostic of the error, if there
is one, and the log stands before it.

- Another run on the source that agrees on the format and the choice of positions has the same
  output and the same status, whatever is logged or coloured.
- Unless more is asked for, there is no log. -/
theorem run_lex {surroundings : Surroundings} {arguments : List String} {invocation : Invocation}
    {settings : Settings} {path : String} {format? : Option DumpFormat} {positions : Bool}
    {source : String}
    (hrun : IsLexRun surroundings arguments invocation settings path format? positions source) :
    (∃ log, run surroundings arguments
      = .finished (exitStatus source)
          (TokenDump.write (format?.getD settings.format) (positions || settings.positions)
            (.start source.toList)).output
          (log ++ complaint source)) ∧
      (∀ surroundings' arguments' invocation' settings' path',
        IsLexRun surroundings' arguments' invocation' settings' path' format? positions source →
        settings'.format = settings.format → settings'.positions = settings.positions →
        ∃ exitCode output errors errors',
          run surroundings arguments = .finished exitCode output errors ∧
            run surroundings' arguments' = .finished exitCode output errors') ∧
      (invocation.verbose = false → settings.verbose = false →
        surroundings.environment.logFilter? = none →
        run surroundings arguments
          = .finished (exitStatus source)
              (TokenDump.write (format?.getD settings.format) (positions || settings.positions)
                (.start source.toList)).output
              (complaint source)) := by
  refine ⟨⟨_, hrun.run_eq⟩, ?_, ?_⟩
  · -- status and output do not mention where the source was read from, or what is logged
    intro surroundings' arguments' invocation' settings' path' hrun' hsameFormat hsamePositions
    have hother := hrun'.run_eq
    rw [hsameFormat, hsamePositions] at hother
    exact ⟨_, _, _, _, hrun.run_eq, hother⟩
  · -- all records are details, and none of them passes the filter
    intro hquiet hquietSettings hunset
    have hnothing := filter_allows_of_isDetail
      (isDetail_of_mem_log hrun.readable (format?.getD settings.format)
        (positions || settings.positions))
    rw [hrun.run_eq, hquiet, hquietSettings, hunset, Bool.or_self, hnothing]
    exact congrArg _ String.empty_append

/-- Surroundings with one file and no settings. -/
def oneFile (environment : Environment) : Surroundings :=
  { environment
    input := .empty
    files := fun path => if path = "a.pas" then .ok "x ?".toUTF8 else .error .notFound
    settingsPlaces := [Settings.fileName]
    terminal := false }

/-- A run that tells nothing but the diagnostic, and one that logs all it can. -/
theorem run_lex_oneFile :
    IsLexRun (oneFile ⟨none, none, none, none⟩) ["lex", "a.pas"]
        ⟨false, false, none, .lex "a.pas" none false⟩ .default "a.pas" none false "x ?" ∧
      run (oneFile ⟨none, none, none, none⟩) ["lex", "a.pas"]
        = .finished 1 "type=IDENTIFIER\tvalue=x\n"
            ("error[E0001]: unexpected character '?'\n --> 1:3\n  1 | x ?\n"
              ++ "    |   ^ not valid here\n  = note: scanning stopped at 1:3\n"
              ++ "  = help: remove the character or replace it with a valid token\n") ∧
      ∃ errors,
        run (oneFile ⟨none, none, some "true", some "trace"⟩) ["--verbose", "lex", "a.pas"]
          = .finished 1 "type=IDENTIFIER\tvalue=x\n" errors := by
  have hquiet : IsLexRun (oneFile ⟨none, none, none, none⟩) ["lex", "a.pas"]
      ⟨false, false, none, .lex "a.pas" none false⟩ .default "a.pas" none false "x ?" :=
    ⟨by decide +kernel, rfl, rfl, rfl, rfl⟩
  have hloud : IsLexRun (oneFile ⟨none, none, some "true", some "trace"⟩)
      ["--verbose", "lex", "a.pas"] ⟨true, true, none, .lex "a.pas" none false⟩ .default "a.pas"
      none false "x ?" :=
    ⟨by decide +kernel, rfl, rfl, rfl, rfl⟩
  obtain ⟨-, hsame, hsilent⟩ := run_lex hquiet
  have hstatus : exitStatus "x ?" = 1 := by decide +kernel
  have houtput : (TokenDump.write .text false (.start "x ?".toList)).output
      = "type=IDENTIFIER\tvalue=x\n" := by
    decide +kernel
  have hdiagnostic : complaint "x ?"
      = "error[E0001]: unexpected character '?'\n --> 1:3\n  1 | x ?\n"
        ++ "    |   ^ not valid here\n  = note: scanning stopped at 1:3\n"
        ++ "  = help: remove the character or replace it with a valid token\n" := by
    decide +kernel
  have htold : run (oneFile ⟨none, none, none, none⟩) ["lex", "a.pas"]
      = .finished (exitStatus "x ?")
          (TokenDump.write .text false (.start "x ?".toList)).output (complaint "x ?") :=
    hsilent rfl rfl rfl
  rw [hstatus, houtput, hdiagnostic] at htold
  refine ⟨hquiet, htold, ?_⟩
  obtain ⟨exitCode, written, errors, errors', hhere, hthere⟩ := hsame _ _ _ _ _ hloud rfl rfl
  rw [htold] at hhere
  cases hhere
  exact ⟨errors', hthere⟩

end MiniPascal
