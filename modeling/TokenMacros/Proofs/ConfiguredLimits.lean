import TokenMacros.Proofs.AskedLimits
import TokenMacros.Proofs.ConfigurationFiles
import TokenMacros.Proofs.MergedOverrides

/-!
# Configured limits

The iteration limit that sources are expanded with.  It is asked for on the
command line, or else written in the configuration file, or else the default;
wherever it comes from, it is a whole number of at least one, so expansion is
never refused for it.
-/

namespace TokenMacros

/-- Where the iteration limit comes from: from the last option for it, else from
the configuration file, if there is one, which may leave it at the default. -/
inductive LimitStems (tree : FileTree) (words : List String) :
    Option Path → Int → Prop where
  | option {file : Option Path} {value : List Char} {rounds : Int}
      (asked : limitAsked? words = some value)
      (reads : Text.readNumeral value = .ok rounds) :
      LimitStems tree words file rounds
  | file {path : Path} {bytes : ByteArray} {document : Toml.Table} {rounds : Int}
      (unasked : limitAsked? words = none) (held : tree.read path = .ok bytes)
      (documents : Configuration.Documents bytes document)
      (told : (Configuration.setting document "max_iterations"
        (.integer defaultMaxIterations)).toWhole = .ok rounds) :
      LimitStems tree words (some path) rounds
  | default (unasked : limitAsked? words = none) :
      LimitStems tree words none defaultMaxIterations

/-! ## The command line -/

namespace Arguments

variable {arguments : Arguments} {words : List String}

theorem readLimit_eq_ok {value : List Char} {rounds : Int}
    (reads : readLimit value = .ok rounds) :
    Text.readNumeral value = .ok rounds ∧ 1 ≤ rounds := by
  unfold readLimit at reads
  split at reads
  · next limit isNumeral =>
      split at reads
      · cases reads
      · next enough =>
          cases reads
          exact ⟨isNumeral, Int.not_lt.mp enough⟩
  · cases reads

/-- Either the words ask for a limit, which then is at least one, or the
arguments have none. -/
theorem limit_cases (accepted : parse words = .ok arguments) :
    (∃ value rounds, limitAsked? words = some value ∧
      Text.readNumeral value = .ok rounds ∧ 1 ≤ rounds ∧
      arguments.maxIterations = some rounds) ∨
    limitAsked? words = none ∧ arguments.maxIterations = none := by
  have read := parse_limit words
  rw [accepted] at read
  have read : limitBehind none (limitsAsked words) =
      .ok arguments.maxIterations := read
  rw [limitBehind] at read
  unfold limitAsked?
  cases asked : (limitsAsked words).getLast? with
  | none =>
      rw [asked] at read
      exact .inr ⟨rfl, (Except.ok.inj read).symm⟩
  | some value =>
      rw [asked, Option.elim_some] at read
      cases reads : readLimit value with
      | error refused =>
          rw [reads] at read
          cases read
      | ok rounds =>
          rw [reads] at read
          obtain ⟨isNumeral, enough⟩ := readLimit_eq_ok reads
          exact .inl ⟨value, rounds, rfl, isNumeral, enough,
            (Except.ok.inj read).symm⟩

end Arguments

theorem Overrides.OfCommand.isPlain {overrides : Overrides}
    (plain : overrides.OfCommand) : overrides.IsPlain := by
  obtain ⟨_, verbose⟩ := plain.verbose
  obtain ⟨_, fallback⟩ := plain.fallback
  constructor
  · simp [plain.settings]
  · simp [verbose, Value.isList]
  · intro value given
    obtain ⟨rounds, rfl⟩ := plain.limit value given
    rfl
  · simp [fallback, Value.isList]

/-! ## Configurations -/

variable {bench : Workbench} {file : Option Path} {base : Configuration}

/-- Without a command line, the limit stems from the file or is the default. -/
theorem BasedOn.limit {tree : FileTree} {words : List String}
    (based : BasedOn tree file base) :
    ∃ rounds : Int, base.maxIterations = .integer rounds ∧ 1 ≤ rounds ∧
      (limitAsked? words = none → LimitStems tree words file rounds) := by
  cases based with
  | default => exact ⟨defaultMaxIterations, rfl, by decide, .default⟩
  | file held decoded parsed =>
      obtain ⟨document, toml, known, describes, rounds, allowed, enough⟩ :=
        Configuration.parse_eq_ok_iff.mp parsed
      obtain ⟨rounds', told, described⟩ := describes.limit
      obtain rfl : rounds = rounds' :=
        Value.integer.inj (allowed.symm.trans described)
      exact ⟨rounds, allowed, enough, fun unasked =>
        .file unasked held ⟨_, decoded, toml, known⟩ told⟩

/-- With a command line, the limit is at least one, wherever it stems from. -/
theorem Configuration.overriddenBy_limit {tree : FileTree} {words : List String}
    {arguments : Arguments} (accepted : Arguments.parse words = .ok arguments)
    (based : BasedOn tree file base) :
    ∃ rounds : Int,
      (base.overriddenBy [arguments.overrides]).maxIterations =
          .integer rounds ∧
        1 ≤ rounds ∧ LimitStems tree words file rounds := by
  have limit : (base.overriddenBy [arguments.overrides]).maxIterations =
      lastGiven base.maxIterations [arguments.maxIterations.map .integer] := rfl
  rcases Arguments.limit_cases accepted with
    ⟨value, rounds, asked, reads, enough, wanted⟩ | ⟨unasked, unwanted⟩
  · -- what is asked for replaces the limit, whatever the file says
    rw [wanted] at limit
    exact ⟨rounds, limit, enough, .option asked reads⟩
  · rw [unwanted] at limit
    obtain ⟨rounds, isLimit, enough, stems⟩ := based.limit
    exact ⟨rounds, limit.trans isLimit, enough, stems unasked⟩

theorem Configuration.limits_of_allowed {configuration : Configuration}
    {rounds : Int} (limit : configuration.maxIterations = .integer rounds)
    (enough : 1 ≤ rounds) :
    ∃ limits, configuration.limits = .ok limits ∧
      (limits.maxIterations : Int) = rounds := by
  have positive : 0 < rounds.toNat := by omega
  refine ⟨⟨rounds.toNat, configuration.singleTokenFallback.truth, positive⟩, ?_,
    ?_⟩
  · rw [limits, limit]
    simp only [pure_bind, Limits.ofInt?, dif_pos positive]
    rfl
  · exact Int.toNat_of_nonneg (by omega)

/-- The configuration of a run is what its file says, with its overrides merged
into it. -/
theorem CommandLine.returns_configuration {overrides : Overrides}
    {configuration : Configuration} (based : BasedOn bench.tree file base)
    (merged : overrides.merge base = .ok configuration) :
    Returns (CommandLine.configuration file overrides) bench configuration
      bench := by
  have merges : Returns (ExceptT.mk (pure (overrides.merge base))) bench
      configuration bench :=
    Returns.mk_pure_iff.mpr ⟨merged, rfl⟩
  cases based with
  | default =>
      have start : Returns (pure {}) bench ({} : Configuration) bench :=
        Returns.pure_iff.mpr ⟨rfl, rfl⟩
      exact (Returns.then_iff start).mpr merges
  | @file path bytes text _ held decoded parsed =>
      have loads : Returns (Configuration.load path) bench base bench := by
        have ran := Configuration.run_load held
        rw [decoded, Option.elim_some, parsed] at ran
        exact ran
      exact (Returns.then_iff loads).mpr merges

/-- For every configuration file that can be loaded, or none, and every accepted
command line, the configuration of a run has a limit of at least one, which is
that of the last option for it, or else that of the file, or else the default.
Sources are expanded with this limit, and never refused for it. -/
theorem configuration_limit {words : List String} {arguments : Arguments}
    (accepted : Arguments.parse words = .ok arguments)
    (based : BasedOn bench.tree file base) :
    ∃ (configuration : Configuration) (rounds : Int) (limits : Limits),
      Returns (CommandLine.configuration file arguments.overrides) bench
        configuration bench ∧
      configuration.maxIterations = .integer rounds ∧ 1 ≤ rounds ∧
      LimitStems bench.tree words file rounds ∧
      configuration.limits = .ok limits ∧
      (limits.maxIterations : Int) = rounds ∧
      ∀ (session : Session) (source : String),
        session.configuration = configuration →
        session.expand source =
          .ok (expandSource session.rules limits source) := by
  have merged :=
    Overrides.merge_eq arguments.overrides_ofCommand.isPlain base
  obtain ⟨rounds, isLimit, enough, stems⟩ :=
    Configuration.overriddenBy_limit accepted based
  obtain ⟨limits, legal, same⟩ :=
    Configuration.limits_of_allowed isLimit enough
  refine ⟨_, rounds, limits, CommandLine.returns_configuration based merged,
    isLimit, enough, stems, legal, same, ?_⟩
  intro session source configured
  rw [Session.expand, configured, legal]
  rfl

/-- The last option in front of the separator counts, not what the file says. -/
theorem configuration_limit_seven :
    let desk := Configuration.deskOf "max_iterations = 2\n"
    let arguments : Arguments :=
      { input := some "--max-iterations=9", configuration := some "app/syn.toml",
        maxIterations := some 7 }
    let words := ["--max-iterations", "4", "-c", "app/syn.toml",
      "--max-iterations=7", "--", "--max-iterations=9"]
    ∃ base configuration limits,
      Arguments.parse words = .ok arguments ∧
      BasedOn desk.tree (Arguments.pathOf arguments.configuration) base ∧
      Returns (CommandLine.configuration
          (Arguments.pathOf arguments.configuration) arguments.overrides)
        desk configuration desk ∧
      configuration.limits = .ok limits ∧ limits.maxIterations = 7 := by
  intro desk arguments words
  have accepted : Arguments.parse words = .ok arguments := by decide +kernel
  have asked : limitAsked? words = some ['7'] := by decide +kernel
  have path : Arguments.pathOf arguments.configuration =
      some ⟨"", ["app", "syn.toml"]⟩ := by
    decide +kernel
  have held : desk.tree.read ⟨"", ["app", "syn.toml"]⟩ =
      .ok "max_iterations = 2\n".toUTF8 := by
    decide +kernel
  have decoded : Text.decode? "max_iterations = 2\n".toUTF8 =
      some "max_iterations = 2\n" := by
    decide +kernel
  have loads : (Configuration.parse ⟨"", ["app", "syn.toml"]⟩
      "max_iterations = 2\n").toOption.isSome := by
    decide +kernel
  cases parsed : Configuration.parse ⟨"", ["app", "syn.toml"]⟩
      "max_iterations = 2\n" with
  | error stop =>
      rw [parsed] at loads
      cases loads
  | ok base =>
      have based : BasedOn desk.tree (Arguments.pathOf arguments.configuration)
          base := by
        rw [path]
        exact .file held decoded parsed
      obtain ⟨configuration, rounds, limits, returns, _, _, stems, legal, same,
        _⟩ := configuration_limit accepted based
      refine ⟨base, configuration, limits, accepted, based, returns, legal, ?_⟩
      cases stems with
      | option asked' reads =>
          obtain rfl := Option.some.inj (asked.symm.trans asked')
          have seven : Text.readNumeral ['7'] = .ok 7 := by decide
          have same' := Except.ok.inj (seven.symm.trans reads)
          omega
      | file unasked => cases asked.symm.trans unasked

end TokenMacros
