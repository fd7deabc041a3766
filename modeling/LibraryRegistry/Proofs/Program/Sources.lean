import LibraryRegistry.Program.LookUp
import LibraryRegistry.Proofs.Config
import LibraryRegistry.Proofs.LookUp
import LibraryRegistry.Proofs.Options

/-!
# Where a configuration comes from

What the options file says is looked at first, and a fault of it is all that comes of it. Otherwise
each option is that of the command line, or else that of the file, so it does not matter in which of
the two an option stands that nothing is laid over.

* `Says` — what an options file says
* `clientConfig_of_error`, `clientConfig_of_ok` — what comes of it
* `clientConfig_sources` — the two sources of options
-/

namespace LibraryRegistry

/-- The files with another text in one of them. -/
def Files.put (files : Files) (path text : String) : Files := fun other =>
  if other = path then .ok (Text.utf8 text) else files other

theorem Files.text_put (files : Files) (path text : String) :
    (files.put path text).text path = .ok text := by
  simp [Files.text, Files.put]

namespace Program.LookUp

/-! ## Options files -/

/-- What is known of the options from the file at a path, if there is one: the options in it, or why
there are none. -/
inductive Says (files : Files) : Option String → Except ConfigFault Options → Prop
  | unnamed : Says files none (.ok {})
  | unreadable {path : String} {fault : FileFault} (h : files.text path = .error fault) :
      Says files (some path) (.error (.unreadable path fault.message))
  | invalid {path text : String} {e : Json.Error} (h : files.text path = .ok text)
      (hparse : (Options.shape.reader {}).parse text = .error e) :
      Says files (some path) (.error (.invalidOptions e))
  | options {path text : String} {o : Options} (h : files.text path = .ok text)
      (hparse : (Options.shape.reader {}).parse text = .ok o) : Says files (some path) (.ok o)

namespace Arguments

variable {a : Arguments} {files : Files}

theorem fileOptions_of_said {said : Except ConfigFault Options} (h : Says files a.config said) :
    a.fileOptions files = said := by
  unfold fileOptions
  generalize a.config = config at h
  cases h with
  | unnamed => rfl
  | unreadable h => simp only [Options.load, h]
  | invalid h hparse => simp only [Options.load, h, Options.ofJson, hparse]
  | options h hparse => simp only [Options.load, h, Options.ofJson, hparse]

/-- Something is known of the options from every file. -/
theorem exists_said (files : Files) (config : Option String) : ∃ said, Says files config said := by
  cases config with
  | none => exact ⟨_, .unnamed⟩
  | some path =>
    cases h : files.text path with
    | error fault => exact ⟨_, .unreadable h⟩
    | ok text =>
      cases hparse : (Options.shape.reader {}).parse text with
      | error e => exact ⟨_, .invalid h hparse⟩
      | ok o => exact ⟨_, .options h hparse⟩

/-- All options can be in a file. -/
theorem says_put_text (files : Files) (path : String) (o : Options) :
    Says (files.put path o.text) (some path) (.ok o) :=
  .options (files.text_put path o.text) o.parse_text

/-! ## Configurations -/

theorem clientConfig_of_error {fault : ConfigFault} (h : Says files a.config (.error fault)) :
    a.clientConfig files = .error fault := by
  rw [clientConfig, fileOptions_of_said h]
  rfl

/-- The headers of the command line are added to a configuration that has none. -/
theorem clientConfig_of_ok {file : Options} (h : Says files a.config (.ok file)) :
    a.clientConfig files
      = (Config.ofOptions (file.merge a.options)).map fun c => { c with headers := a.headers } := by
  rw [clientConfig, fileOptions_of_said h]
  show (Config.ofOptions (file.merge a.options) >>= fun c => .ok (a.headers.foldl .withHeader c)) = _
  cases hoptions : Config.ofOptions (file.merge a.options) with
  | error fault => rfl
  | ok c =>
    have hnone : c.headers = [] := Config.headers_ofOptions hoptions
    show Except.ok (a.headers.foldl .withHeader c) = .ok { c with headers := a.headers }
    rw [Config.foldl_withHeader, hnone, List.nil_append]

/-- What an options file without a fault and the command line come to together. -/
structure Configured (a : Arguments) (files : Files) (file : Options) : Prop where
  /-- Each option is that of the command line, or else that of the file, and the headers are those of
  the command line in their order. -/
  result : a.clientConfig files = (Config.ofOptions
    { host := a.host <|> file.host
      port := a.port <|> file.port
      timeout := a.timeout <|> file.timeout
      connectTimeout := a.connectTimeout <|> file.connectTimeout }).map fun c =>
        { c with headers := a.headers }
  /-- Options may move from the command line to the file, over what the file says. -/
  moved : ∀ (chosen : Options.Name → Bool) (b : Arguments) (files' : Files),
    b.options = a.options.keep (fun name => !chosen name) → b.headers = a.headers →
    Says files' b.config (.ok (file.merge (a.options.keep chosen))) →
    b.clientConfig files' = a.clientConfig files
  /-- Options that the command line sets may go from the file. -/
  deleted : ∀ (kept : Options.Name → Bool) (b : Arguments) (files' : Files),
    (∀ name, kept name = false → a.options.Sets name) →
    b.options = a.options → b.headers = a.headers → Says files' b.config (.ok (file.keep kept)) →
    b.clientConfig files' = a.clientConfig files

theorem configured_of_said {file : Options} (h : Says files a.config (.ok file)) :
    Configured a files file where
  result := clientConfig_of_ok h
  moved := by
    intro chosen b files' hoptions hheaders hsaid
    rw [clientConfig_of_ok hsaid, clientConfig_of_ok h, hoptions, hheaders,
      Options.merge_keep_keep]
  deleted := by
    intro kept b files' hset hoptions hheaders hsaid
    rw [clientConfig_of_ok hsaid, clientConfig_of_ok h, hoptions, hheaders,
      Options.keep_merge hset]

/-- **The two sources of options.** A fault of the options file counts whatever the command line says.
Without one, it does not matter where an option stands that counts, or what stands under it; a file
can say whatever is to be moved into it. -/
theorem clientConfig_sources (a : Arguments) (files : Files) :
    (∃ said, Says files a.config said) ∧
    (∀ fault, Says files a.config (.error fault) →
      ∀ b : Arguments, b.config = a.config → b.clientConfig files = .error fault) ∧
    (∀ file, Says files a.config (.ok file) → Configured a files file) ∧
    (∀ path options, ∃ text, Says (files.put path text) (some path) (.ok options)) := by
  refine ⟨exists_said files a.config, ?_, fun file => configured_of_said, ?_⟩
  · intro fault h b hb
    rw [← hb] at h
    exact clientConfig_of_error h
  · intro path options
    exact ⟨options.text, says_put_text files path options⟩

/-- A command line that sets the port over the one in its options file. -/
def overriding : Arguments where
  library := "x"
  port := some 80
  config := some "o.json"
  headers := [("X-Id", "42")]

/-- Its options file; the port in it is out of range. -/
def overridden : Files :=
  Files.put (fun _ => .error .missing) "o.json" (Options.text { host := some "h", port := some 0 })

/-- The options file with the port of the command line. -/
def corrected : Files := overridden.put "o.json" (Options.text { host := some "h", port := some 80 })

theorem clientConfig_sources_overriding :
    Says overridden overriding.config (.ok { host := some "h", port := some 0 }) ∧
    overriding.clientConfig overridden = .ok Client.tracedConfig ∧
    Says corrected overriding.config (.ok { host := some "h", port := some 80 }) ∧
    { overriding with port := none }.clientConfig corrected = .ok Client.tracedConfig := by
  have hsaid : Says overridden overriding.config (.ok { host := some "h", port := some 0 }) :=
    says_put_text _ _ _
  have hmoved : Says corrected overriding.config (.ok { host := some "h", port := some 80 }) :=
    says_put_text _ _ _
  have hconfigured := (clientConfig_sources overriding overridden).2.2.1 _ hsaid
  have hresult : overriding.clientConfig overridden = .ok Client.tracedConfig := hconfigured.result
  refine ⟨hsaid, hresult, hmoved, ?_⟩
  rw [hconfigured.moved (fun name => name == .port) { overriding with port := none } corrected rfl rfl
    hmoved, hresult]

end Arguments

end Program.LookUp

end LibraryRegistry
