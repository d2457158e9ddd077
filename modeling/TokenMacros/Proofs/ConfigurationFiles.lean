import TokenMacros.Proofs.SessionStops

/-!
# Configuration files

What becomes of every file that a configuration is read from.  A configuration
is answered exactly if the document has known keys and settings that can be
used; it then says what the document says.  Any other document is refused as
invalid, except for an infinite iteration limit, and a file without a document
in it is refused in the same way if it holds a text at all.
-/

namespace TokenMacros

namespace Configuration

variable {document : Toml.Table} {base path : Path} {text : String}
  {configuration : Configuration} {stop : Stop}

/-- What a document says under a key, or a default. -/
def setting (document : Toml.Table) (key : String) (default : Value) : Value :=
  (document.entry? key).getD default

/-- The texts that a document lists under a key; none if it has no such key. -/
def Lists (document : Toml.Table) (key : String) (texts : List String) : Prop :=
  setting document key (.list []) = .list (texts.map .text)

/-- The lists of the document are lists of texts, and its settings of plugins
make a table. -/
structure Usable (document : Toml.Table) : Prop where
  directories : ∃ texts, Lists document "macro_directories" texts
  files : ∃ texts, Lists document "macro_files" texts
  plugins : ∃ texts, Lists document "plugins" texts
  settings : ∃ entries,
    (setting document "plugin_settings" (.table [])).toTable = .ok entries

/-- The configuration says what the document does, for a file in the directory
`base`. -/
structure Describes (base : Path) (document : Toml.Table)
    (configuration : Configuration) : Prop where
  directories : ∃ texts, Lists document "macro_directories" texts ∧
    configuration.macroDirectories =
      texts.map fun text => base.join (.ofString text)
  files : ∃ texts, Lists document "macro_files" texts ∧
    configuration.macroFiles =
      texts.map fun text => base.join (.ofString text)
  plugins : Lists document "plugins" configuration.plugins
  settings : ∃ entries,
    (setting document "plugin_settings" (.table [])).toTable = .ok entries ∧
      configuration.pluginSettings = .table entries
  verbose : configuration.verbose =
    .boolean (setting document "verbose" (.boolean false)).truth
  limit : ∃ rounds, (setting document "max_iterations"
      (.integer defaultMaxIterations)).toWhole = .ok rounds ∧
    configuration.maxIterations = .integer rounds
  fallback : configuration.singleTokenFallback = .boolean
    (setting document "legacy_single_token_fallback" (.boolean false)).truth

/-- The document has known keys only. -/
def HasKnownKeys (document : Toml.Table) : Prop :=
  ∀ key ∈ document.names, key ∈ knownKeys

/-- At least one round is allowed. -/
def AllowsRounds (configuration : Configuration) : Prop :=
  ∃ rounds : Int, configuration.maxIterations = .integer rounds ∧ 1 ≤ rounds

/-! ## Lists of texts -/

theorem filterMap_eq_iff_of_reads {read : Value → Option String}
    (reads : ∀ value text, read value = some text ↔ value = .text text)
    {items : List Value} {texts : List String} :
    (items.filterMap read = texts ∧ texts.length = items.length) ↔
      items = texts.map .text := by
  constructor
  · rintro ⟨rfl, all⟩
    induction items with
    | nil => rfl
    | cons item items induction =>
        cases given : read item with
        | none =>
            have fewer := List.length_filterMap_le read items
            rw [List.filterMap_cons_none given, List.length_cons] at all
            omega
        | some text =>
            rw [List.filterMap_cons_some given] at all ⊢
            rw [List.map_cons, ← induction (Nat.succ.inj all),
              (reads item text).mp given]
  · rintro rfl
    have each : read ∘ Value.text = some := by
      funext text
      exact (reads _ text).mpr rfl
    rw [List.filterMap_map, each, List.filterMap_some, List.length_map]
    exact ⟨rfl, rfl⟩

theorem readAll_eq_ok_iff {read : Value → Option String}
    (reads : ∀ value text, read value = some text ↔ value = .text text)
    {items : List Value} {texts : List String} :
    (if (items.filterMap read).length = items.length then
        Except.ok (items.filterMap read)
      else .error stop) = .ok texts ↔ items = texts.map .text := by
  rw [← filterMap_eq_iff_of_reads reads]
  split
  · next all =>
      rw [Except.ok.injEq]
      constructor
      · rintro rfl
        exact ⟨rfl, all⟩
      · exact And.left
  · next fewer =>
      constructor
      · intro failed
        cases failed
      · rintro ⟨rfl, all⟩
        exact absurd all fewer

theorem textsOf_eq_ok_iff {key : String} {texts : List String} :
    textsOf document key = .ok texts ↔ Lists document key texts := by
  unfold textsOf Lists setting
  split
  · next absent => simp [absent, eq_comm]
  · next items held =>
      rw [held, Option.getD_some, Value.list.injEq]
      apply readAll_eq_ok_iff
      intro value text
      cases value <;> simp
  · next value other held =>
      rw [held, Option.getD_some]
      constructor
      · intro failed
        cases failed
      · exact fun isList => (other _ isList).elim

/-! ## Documents -/

theorem ofDocument_eq_ok_iff :
    ofDocument base document = .ok configuration ↔
      Describes base document configuration := by
  simp only [ofDocument, bind_eq_ok_iff, textsOf_eq_ok_iff]
  constructor
  · rintro ⟨directories, listed, files, listed', plugins, listed'', entries,
      table, rounds, whole, result⟩
    obtain rfl := Except.ok.inj result
    exact ⟨⟨directories, listed, rfl⟩, ⟨files, listed', rfl⟩, listed'',
      ⟨entries, table, rfl⟩, rfl, ⟨rounds, whole, rfl⟩, rfl⟩
  · rintro ⟨⟨directories, listed, isDirectories⟩, ⟨files, listed', isFiles⟩,
      plugins, ⟨entries, table, isTable⟩, verbose, ⟨rounds, whole, isWhole⟩,
      fallback⟩
    refine ⟨directories, listed, files, listed', _, plugins, entries, table,
      rounds, whole, congrArg Except.ok ?_⟩
    cases configuration
    simp only [mk.injEq]
    exact ⟨isDirectories.symm, isFiles.symm, trivial, isTable.symm, verbose.symm,
      isWhole.symm, fallback.symm⟩

theorem ne_infinite_of_hasReason {α : Type} {result : Except Stop α}
    (yields : Yields (fun _ => True) Stop.HasReason result) :
    result ≠ .error .infinite := by
  rintro rfl
  cases yields

theorem toWhole_eq_infinite_iff {value : Value} :
    value.toWhole = .error .infinite ↔
      ∃ negative, value = .float (.infinity negative) := by
  constructor
  · intro refused
    have yields := Value.toWhole_yields value
    rw [refused] at yields
    rcases yields with reason | ⟨_, infinite⟩
    · cases reason
    · exact infinite
  · rintro ⟨negative, rfl⟩
    rfl

theorem setting_limit_eq_infinite_iff :
    (∃ negative, setting document "max_iterations"
      (.integer defaultMaxIterations) = .float (.infinity negative)) ↔
      HasInfiniteLimit document := by
  unfold setting HasInfiniteLimit
  cases document.entry? "max_iterations" with
  | none => simp
  | some value => simp

theorem ofDocument_eq_infinite_iff :
    ofDocument base document = .error .infinite ↔
      Usable document ∧ HasInfiniteLimit document := by
  have texts (key : String) := ne_infinite_of_hasReason (textsOf_yields document key)
  have table (value : Value) := ne_infinite_of_hasReason value.toTable_yields
  have answered (configuration : Configuration) :
      (pure configuration : Except Stop Configuration) ≠ .error .infinite := by
    intro failed
    cases failed
  simp only [ofDocument, bind_eq_error_iff, textsOf_eq_ok_iff, texts, table,
    answered, and_false, exists_false, or_false, false_or,
    toWhole_eq_infinite_iff]
  rw [← setting_limit_eq_infinite_iff]
  constructor
  · rintro ⟨directories, listed, files, listed', plugins, listed'', entries,
      isTable, limit⟩
    exact ⟨⟨⟨directories, listed⟩, ⟨files, listed'⟩, ⟨plugins, listed''⟩,
      ⟨entries, isTable⟩⟩, limit⟩
  · rintro ⟨⟨⟨directories, listed⟩, ⟨files, listed'⟩, ⟨plugins, listed''⟩,
      ⟨entries, isTable⟩⟩, limit⟩
    exact ⟨directories, listed, files, listed', plugins, listed'', entries,
      isTable, limit⟩

/-! ## Texts -/

theorem unknownKeys_eq_nil_iff :
    unknownKeys document = [] ↔ HasKnownKeys document := by
  rw [← List.length_eq_zero_iff, unknownKeys, List.length_mergeSort,
    List.length_eq_zero_iff, List.filter_eq_nil_iff]
  simp [HasKnownKeys]

/-- The file is refused as invalid, for some reason. -/
def IsInvalid (path : Path) (stop : Stop) : Prop :=
  ∃ reason, stop = .failed (.configurationInvalid path.toString reason)

/-- How a text is judged that a configuration file at `path` holds. -/
inductive Judged (path : Path) (text : String) :
    Except Stop Configuration → Prop where
  | described {document : Toml.Table} {configuration : Configuration}
      (parsed : Toml.parse text = .ok document)
      (known : HasKnownKeys document)
      (describes : Describes path.parent document configuration)
      (allows : AllowsRounds configuration) :
      Judged path text (.ok configuration)
  | infinite {document : Toml.Table} (parsed : Toml.parse text = .ok document)
      (known : HasKnownKeys document) (usable : Usable document)
      (limit : HasInfiniteLimit document) :
      Judged path text (.error .infinite)
  | tooManyDigits (digits : Toml.parse text = .error .tooManyDigits) :
      Judged path text (.error (.wrongValue Toml.tooManyDigitsMessage))
  | invalid {stop : Stop} (isInvalid : IsInvalid path stop) :
      Judged path text (.error stop)

theorem parse_judged (path : Path) (text : String) :
    Judged path text (parse path text) := by
  cases parsed : Toml.parse text with
  | error refusal =>
      rw [parse, parsed]
      cases refusal with
      | malformed => exact .invalid ⟨_, rfl⟩
      | tooManyDigits => exact .tooManyDigits parsed
  | ok document =>
      rw [parse, parsed]
      simp only [pure_bind]
      split
      · next none =>
          have known := unknownKeys_eq_nil_iff.mp none
          cases given : ofDocument path.parent document with
          | error stop =>
              have yields := ofDocument_yields path.parent document
              rw [given] at yields
              rcases yields with reason | ⟨rfl, limit⟩
              · obtain ⟨reason, told⟩ := Option.isSome_iff_exists.mp reason
                refine .invalid ⟨reason, ?_⟩
                simp [told]
              · exact .infinite parsed known
                  (ofDocument_eq_infinite_iff.mp given).1 limit
          | ok configuration =>
              have describes := ofDocument_eq_ok_iff.mp given
              obtain ⟨rounds, _, isWhole⟩ := describes.limit
              simp only [Except.mapError, bind, Except.bind, isWhole]
              split
              · exact .invalid ⟨_, rfl⟩
              · next enough =>
                  exact .described parsed known describes
                    ⟨rounds, isWhole, Int.not_lt.mp enough⟩
      · exact .invalid ⟨_, rfl⟩

theorem parse_eq_ok_iff :
    parse path text = .ok configuration ↔
      ∃ document, Toml.parse text = .ok document ∧ HasKnownKeys document ∧
        Describes path.parent document configuration ∧
        AllowsRounds configuration := by
  constructor
  · intro answered
    have judged := parse_judged path text
    rw [answered] at judged
    cases judged with
    | described parsed known describes allows =>
        exact ⟨_, parsed, known, describes, allows⟩
  · rintro ⟨document, parsed, known, describes, rounds, isWhole, enough⟩
    rw [parse, parsed]
    simp only [pure_bind, unknownKeys_eq_nil_iff.mpr known,
      ofDocument_eq_ok_iff.mpr describes]
    simp only [Except.mapError, bind, Except.bind, isWhole]
    exact if_neg (Int.not_lt.mpr enough)

theorem parse_eq_infinite_iff :
    parse path text = .error .infinite ↔
      ∃ document, Toml.parse text = .ok document ∧ HasKnownKeys document ∧
        Usable document ∧ HasInfiniteLimit document := by
  constructor
  · intro stopped
    have judged := parse_judged path text
    rw [stopped] at judged
    cases judged with
    | infinite parsed known usable limit =>
        exact ⟨_, parsed, known, usable, limit⟩
    | invalid isInvalid =>
        obtain ⟨reason, same⟩ := isInvalid
        cases same
  · rintro ⟨document, parsed, known, usable, limit⟩
    rw [parse, parsed]
    simp only [pure_bind, unknownKeys_eq_nil_iff.mpr known,
      ofDocument_eq_infinite_iff.mpr ⟨usable, limit⟩]
    rfl

/-! ## Files -/

/-- The bytes of a file are a document with known keys. -/
def Documents (bytes : ByteArray) (document : Toml.Table) : Prop :=
  ∃ text, Text.decode? bytes = some text ∧ Toml.parse text = .ok document ∧
    HasKnownKeys document

variable {bench : Workbench} {bytes : ByteArray}

theorem run_load (held : bench.tree.read path = .ok bytes) :
    Id.run (StateT.run (load path).run bench) =
      ((Text.decode? bytes).elim (.error (.undecodable path)) (parse path),
        bench) := by
  have isThere : Returns (FileSystem.isFile path) bench true bench :=
    Returns.isFile_iff.mpr
      ⟨_, FileTree.kind?_eq_file_iff.mpr ⟨bytes, held⟩, rfl, rfl⟩
  rw [load, Returns.run_bind isThere]
  change Id.run (StateT.run (FileSystem.readText path >>= _).run bench) = _
  rw [ExceptT.run_bind, StateT.run_bind, Id.run_bind, Returns.run_readText held]
  cases Text.decode? bytes with
  | some text => rfl
  | none => rfl

/-- Every file is answered as the configuration that it describes, exactly if it
is a document with known keys and settings that can be used.  Every other file
is refused as invalid, except for three: one that holds no text, one whose
iteration limit is infinite, and one with an integer of too many digits. -/
theorem load_judges (held : bench.tree.read path = .ok bytes) :
    ∃ result, Id.run (StateT.run (load path).run bench) = (result, bench) ∧
      (∀ configuration, result = .ok configuration ↔
        ∃ document, Documents bytes document ∧
          Describes path.parent document configuration ∧
          AllowsRounds configuration) ∧
      (result = .error (.undecodable path) ↔ Text.decode? bytes = none) ∧
      (result = .error .infinite ↔
        ∃ document, Documents bytes document ∧ Usable document ∧
          HasInfiniteLimit document) ∧
      ∀ stop, result = .error stop →
        IsInvalid path stop ∨ stop = .undecodable path ∨ stop = .infinite ∨
          stop = .wrongValue Toml.tooManyDigitsMessage ∧
            ∃ text, Text.decode? bytes = some text ∧
              Toml.parse text = .error .tooManyDigits := by
  refine ⟨_, run_load held, ?_⟩
  cases decoded : Text.decode? bytes with
  | none =>
      have noDocument (document : Toml.Table) : ¬ Documents bytes document := by
        rintro ⟨text, decoded', _⟩
        rw [decoded] at decoded'
        cases decoded'
      simp [noDocument]
  | some text =>
      have isDocument (document : Toml.Table) : Documents bytes document ↔
          Toml.parse text = .ok document ∧ HasKnownKeys document := by
        simp [Documents, decoded]
      have judged := parse_judged path text
      simp only [isDocument, and_assoc, Option.elim_some]
      refine ⟨fun _ => parse_eq_ok_iff, ?_, parse_eq_infinite_iff, ?_⟩
      · constructor
        · intro stopped
          rw [stopped] at judged
          cases judged with
          | invalid isInvalid =>
              obtain ⟨reason, same⟩ := isInvalid
              cases same
        · intro absent
          cases absent
      · intro stop stopped
        rw [stopped] at judged
        cases judged with
        | infinite => exact .inr (.inr (.inl rfl))
        | tooManyDigits digits => exact .inr (.inr (.inr ⟨rfl, text, rfl, digits⟩))
        | invalid isInvalid => exact .inl isInvalid

/-- A directory with a configuration file. -/
def deskOf (text : String) : Workbench where
  tree := { entries :=
    [(["app"], .directory), (["app", "syn.toml"], .file text.toUTF8)] }

/-- A rule directory is meant from the directory of the file. -/
theorem load_judges_directories :
    let desk := deskOf "macro_directories = ['rules/']\nmax_iterations = 3\n"
    ∃ configuration,
      Returns (load ⟨"", ["app", "syn.toml"]⟩) desk configuration desk ∧
        AllowsRounds configuration ∧
        configuration.macroDirectories = [⟨"", ["app", "rules"]⟩] := by
  intro desk
  have held : desk.tree.read ⟨"", ["app", "syn.toml"]⟩ =
      .ok "macro_directories = ['rules/']\nmax_iterations = 3\n".toUTF8 := by
    decide +kernel
  have given : (Id.run (StateT.run (load ⟨"", ["app", "syn.toml"]⟩ :
      Run (StateM Workbench) Configuration).run desk)).1.toOption.map
        (·.macroDirectories) = some [⟨"", ["app", "rules"]⟩] := by
    decide +kernel
  obtain ⟨result, ran, answers, _⟩ := load_judges held
  rw [ran] at given
  cases result with
  | error stop => cases given
  | ok configuration =>
      obtain ⟨_, _, _, allows⟩ := (answers configuration).mp rfl
      exact ⟨configuration, ran, allows, Option.some.inj given⟩

/-- A file with an infinite iteration limit is neither answered nor refused as
invalid. -/
theorem load_infinite :
    ¬ ∀ (path : Path) (bench : Workbench) (bytes : ByteArray),
      bench.tree.read path = .ok bytes →
      (∀ text, Text.decode? bytes = some text →
        Toml.parse text ≠ .error .tooManyDigits) →
      (∃ configuration, AllowsRounds configuration ∧
        Returns (load path) bench configuration bench) ∨
      ∃ stop, IsInvalid path stop ∧
        Id.run (StateT.run (load path).run bench) = (.error stop, bench) := by
  intro answersOrRefuses
  let path : Path := ⟨"", ["app", "syn.toml"]⟩
  let text := "max_iterations = inf\n"
  have held : (deskOf text).tree.read path = .ok text.toUTF8 := by
    decide +kernel
  have decoded : Text.decode? text.toUTF8 = some text := by
    decide +kernel
  have judged : (parse path text).map (fun _ => ()) = .error .infinite := by
    decide +kernel
  have infinite : parse path text = .error .infinite := by
    cases given : parse path text with
    | ok configuration =>
        rw [given] at judged
        cases judged
    | error stop =>
        rw [given] at judged
        exact congrArg Except.error (Except.error.inj judged)
  have stopped : Id.run (StateT.run (load path).run (deskOf text)) =
      (.error .infinite, deskOf text) := by
    rw [run_load held, decoded, Option.elim_some, infinite]
  obtain ⟨document, parsed, _⟩ := parse_eq_infinite_iff.mp infinite
  have readable : ∀ text', Text.decode? text.toUTF8 = some text' →
      Toml.parse text' ≠ .error .tooManyDigits := by
    intro text' decoded' digits
    cases decoded.symm.trans decoded'
    rw [parsed] at digits
    cases digits
  rcases answersOrRefuses path (deskOf text) text.toUTF8 held readable with
    ⟨_, _, returned⟩ | ⟨_, ⟨_, rfl⟩, refused⟩
  · cases stopped.symm.trans returned
  · cases stopped.symm.trans refused

end Configuration

end TokenMacros
