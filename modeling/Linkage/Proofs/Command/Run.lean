import Linkage.Proofs.Command.Request
import Linkage.Proofs.FileTree
import Linkage.Proofs.Locations

/-!
# Command line — all or nothing

A request checks its settings, reads its input and links, and only then prints and writes.

* `Request.settingsIn`: the settings are those of the environment, and an option that is given takes
  the place of what the environment says.
* `checkedLink` is the link that a run makes, its settings checked before.  The name that a text
  goes by shows in its places alone (`checkedLink_name`).
* `run_linkRequest`: a failure of that link is all that is reported, and every file is as it was.
* `run_deliver`: a result is printed, and written where the request asks for it.

**A request prints and writes everything or nothing** (`linkRequest_allOrNothing`).  A run whose
arguments are accepted and ask for a link is that of a request which answers them (`run_answers`).
-/

namespace Linkage.Command

variable {t t' : FileTree} {input : List UInt8} {a : Arguments} {r : Request} {source text : String}
  {env : Environment} {args : List String}

/-! ### Linking -/

/-- The settings of a request: the size and the policy that it gives, and for what it does not give
those of the environment. -/
def Request.settingsIn (r : Request) (env : Environment) : Settings where
  machineSize := match r.machineSize with
    | some size => size
    | none      => (Settings.ofEnvironment env).machineSize
  policy := match r.policy with
    | some p => .known p
    | none   => (Settings.ofEnvironment env).policy
  warnUnused := (Settings.ofEnvironment env).warnUnused

theorem Request.overlay_ofEnvironment (r : Request) (env : Environment) :
    r.overlay (.ofEnvironment env) = r.settingsIn env := by
  obtain ⟨input, output, symbols, policy, machineSize, withModules, verbose⟩ := r
  cases policy <;> cases machineSize <;> rfl

/-- A link under settings that are checked before. -/
def checkedLink (settings : Settings) (source name : String) : Except Failure LinkResult := do
  settings.validate.mapError Failure.settings
  (linkText settings source name).result

section

variable {settings : Settings}

theorem checkedLink_of_error {e : SettingsError} (h : settings.validate = .error e)
    (source name : String) : checkedLink settings source name = .error (.settings e) := by
  rw [checkedLink, h]
  rfl

theorem checkedLink_of_ok (h : settings.validate = .ok ()) (source name : String) :
    checkedLink settings source name = (linkText settings source name).result := by
  rw [checkedLink, h]
  rfl

/-- A failure at another place is of the same category. -/
theorem categoryOf_moved (g : Location → Location) (f : Failure) :
    categoryOf (f.moved g) = categoryOf f := by
  cases f with
  | file e => cases e <;> rfl
  | _ => rfl

/-- The name of a text shows neither in the table nor in the listing, and does not matter to the
category of a failure. -/
theorem checkedLink_name (settings : Settings) (source name name' : String) :
    (∃ f f', checkedLink settings source name = .error f ∧
      checkedLink settings source name' = .error f' ∧ categoryOf f' = categoryOf f) ∨
    ∃ result result', checkedLink settings source name = .ok result ∧
      checkedLink settings source name' = .ok result' ∧ result'.symbols = result.symbols ∧
        ∀ withModules, result'.listing withModules = result.listing withModules := by
  cases hv : settings.validate with
  | error e =>
    exact .inl ⟨_, _, checkedLink_of_error hv .., checkedLink_of_error hv .., rfl⟩
  | ok u =>
    rw [checkedLink_of_ok hv, checkedLink_of_ok hv]
    have hwords : (Token.scan source name).map Token.text =
        (Token.scan source name').map Token.text := by
      rw [map_text_scan, map_text_scan]
    have hmoved := movedResult_linkText settings ⟨name, 1, 1⟩ hwords
    cases hr : (linkText settings source name).result with
    | error f =>
      cases hr' : (linkText settings source name').result with
      | ok result' => rw [hr, hr'] at hmoved; cases hmoved
      | error f' =>
        rw [hr, hr'] at hmoved
        refine .inl ⟨f, f', rfl, rfl, ?_⟩
        rw [← categoryOf_moved (fun _ => ⟨name, 1, 1⟩) f', ← Except.error.inj hmoved,
          categoryOf_moved]
    | ok result =>
      cases hr' : (linkText settings source name').result with
      | error f' => rw [hr, hr'] at hmoved; cases hmoved
      | ok result' =>
        rw [hr, hr'] at hmoved
        obtain ⟨-, hsymbols, -, hlisting⟩ := LinkResult.eq_of_moved (Except.ok.inj hmoved).symm
        exact .inr ⟨result, result', rfl, rfl, hsymbols, hlisting⟩

end

/-! ### Running -/

/-- The text of the input; the path of a single dash stands for standard input. -/
def sourceOf (t : FileTree) (input : List UInt8) (path : String) : Except FileError String :=
  if path = "-" then Encoding.readText input else (t.readBytes path).bind Encoding.readText

theorem run_readSource (t : FileTree) (input : List UInt8) (path : String) :
    (readSource (FileTree.fileSystem input) path).run t = (sourceOf t input path, t) := by
  unfold readSource sourceOf
  split <;> rfl

/-- A text is written where one was asked for. -/
theorem run_writeRequested {path : Option String}
    (h : ∀ p, path = some p → ∃ name, t.target? p = some name) (input : List UInt8) (text : String)
    (event : String → Event) :
    ∃ events, (writeRequested (FileTree.fileSystem input) path text event).run t =
      (.ok events, t.written path text) := by
  cases path with
  | none => exact ⟨[], rfl⟩
  | some p =>
    obtain ⟨name, hname⟩ := h p rfl
    have hwrite : ((FileTree.fileSystem input).writeText p text).run t =
        (.ok (), t.put name text.toUTF8.toList) := by
      have hget : (get : StateM FileTree FileTree).run t = (t, t) := rfl
      show (get >>= _ : StateM FileTree _).run t = _
      rw [run_bind hget, FileTree.writeText_of_target? hname]
      rfl
    refine ⟨[event p], ?_⟩
    rw [writeRequested, run_bind hwrite, FileTree.written, Option.bind_some, hname]
    rfl

/-- The files that a request asks for. -/
def Request.Asks (r : Request) (path : String) : Prop :=
  r.output = some path ∨ r.symbols = some path

/-- A result is printed, and then written to the files that were asked for. -/
theorem run_deliver (h : ∀ p, r.Asks p → ∃ name, t.target? p = some name) (input : List UInt8)
    (events : List Event) (result : LinkResult) :
    ∃ stderr, (deliver (FileTree.fileSystem input) r events result).run t =
      (⟨0, result.listing r.withModules, stderr⟩,
        (t.written r.output (result.listing r.withModules)).written r.symbols
          (result.symbols.listing ++ "\n")) := by
  obtain ⟨listed, hlisted⟩ := run_writeRequested (fun p hp => h p (.inl hp)) input
    (result.listing r.withModules) .listingWritten
  have hsymbols : ∀ p, r.symbols = some p →
      ∃ name, (t.written r.output (result.listing r.withModules)).target? p = some name := by
    intro p hp
    obtain ⟨name, hname⟩ := h p (.inr hp)
    exact ⟨name, FileTree.target?_written hname⟩
  obtain ⟨written, hwritten⟩ := run_writeRequested hsymbols input (result.symbols.listing ++ "\n")
    .symbolsWritten
  rw [deliver, run_bind hlisted]
  dsimp only
  rw [run_bind hwritten]
  exact ⟨_, rfl⟩

/-- A request is failed by what fails its link, and delivers the result otherwise. -/
theorem run_linkRequest (env : Environment) (hs : sourceOf t input r.input = .ok source) :
    ∃ events, (linkRequest (FileTree.fileSystem input) env r).run t =
      match checkedLink (r.settingsIn env) source r.inputName with
      | .error f   => (.failed r.verbose events "" f, t)
      | .ok result => (deliver (FileTree.fileSystem input) r events result).run t := by
  unfold linkRequest
  rw [r.overlay_ofEnvironment]
  dsimp only
  cases hv : (r.settingsIn env).validate with
  | error e =>
    rw [checkedLink_of_error hv]
    exact ⟨_, rfl⟩
  | ok u =>
    dsimp only
    rw [checkedLink_of_ok hv, run_bind (run_readSource ..), hs]
    dsimp only
    cases (linkText (r.settingsIn env) source r.inputName).result with
    | error f => exact ⟨_, rfl⟩
    | ok result => exact ⟨_, rfl⟩

/-- Arguments that are accepted and ask for a link run the link of a request that answers them. -/
theorem run_answers (hargs : Arguments.parse args = .ok a) (hlink : a.informative? = none)
    (hr : ((request (FileTree.fileSystem input) a).run t).1 = .ok r) :
    r.Answers a ∧ (run (FileTree.fileSystem input) env args).run t =
      (linkRequest (FileTree.fileSystem input) env r).run t := by
  obtain ⟨o, ho, hanswers⟩ := run_request t input a
  rw [ho] at hr
  obtain rfl : o = .ok r := hr
  refine ⟨hanswers r rfl, ?_⟩
  rw [run, hargs]
  dsimp only
  rw [hlink]
  dsimp only
  rw [run_bind ho]

/-- **All or nothing.**  Of a request whose input can be read, the settings are those of the
environment, overlaid by the options.  Where they are refused, or the link fails, nothing is printed
and no file is changed, and the exit code tells which of the two it was.  Where the link succeeds
and the files asked for can be written and are not the same, the listing is printed and written, the
table is written, and no other file is changed.  Both are those of the text under any name. -/
theorem linkRequest_allOrNothing {report : Report} (hs : sourceOf t input r.input = .ok source)
    (hrun : (linkRequest (FileTree.fileSystem input) env r).run t = (report, t'))
    (name : String) :
    (∀ f, checkedLink (r.settingsIn env) source name = .error f →
      report.stdout = "" ∧ t' = t ∧ ((∃ e, f = .settings e) → report.exitCode = 2) ∧
        ((∃ e, f = .link e) ∨ (∃ e, f = .misuse e) → report.exitCode = 1)) ∧
    ∀ result, checkedLink (r.settingsIn env) source name = .ok result →
      (∀ p, r.Asks p → ∀ text, ∃ t₁, t.writeText p text = .ok t₁) →
        (∀ p q, r.output = some p → r.symbols = some q → t.target? p ≠ t.target? q) →
          report.exitCode = 0 ∧ report.stdout = result.listing r.withModules ∧
            (∀ p, r.output = some p →
              t'.readBytes p = .ok (result.listing r.withModules).toUTF8.toList) ∧
            (∀ p, r.symbols = some p →
              t'.readBytes p = .ok (result.symbols.listing ++ "\n").toUTF8.toList) ∧
            t'.directories = t.directories ∧
              ∀ n, (∀ p, r.Asks p → t.target? p ≠ some n) → t'.content? n = t.content? n := by
  obtain ⟨events, hlinks⟩ := run_linkRequest env hs
  rw [hlinks] at hrun
  rcases checkedLink_name (r.settingsIn env) source name r.inputName with
    ⟨f₀, f', h₀, h', hcategory⟩ | ⟨result₀, result', h₀, h', hsymbols, hlisting⟩
  · rw [h'] at hrun
    cases hrun
    refine ⟨fun f hf => ?_, fun result hresult => by cases h₀.symm.trans hresult⟩
    cases h₀.symm.trans hf
    have hexit : (Report.failed r.verbose events "" f').exitCode = (categoryOf f₀).exitCode := by
      rw [← hcategory]
      rfl
    refine ⟨rfl, rfl, ?_, ?_⟩
    · rintro ⟨e, rfl⟩
      exact hexit
    · rintro (⟨e, rfl⟩ | ⟨e, rfl⟩)
      · exact hexit
      · exact hexit
  · refine ⟨fun f hf => (by cases h₀.symm.trans hf), fun result hresult hwritable hdistinct => ?_⟩
    cases h₀.symm.trans hresult
    have htargets : ∀ p, r.Asks p → ∃ n, t.target? p = some n := fun p hp =>
      FileTree.exists_writeText_iff.1 (hwritable p hp "")
    obtain ⟨stderr, hdelivered⟩ := run_deliver htargets input events result'
    rw [hlisting, hsymbols] at hdelivered
    rw [h'] at hrun
    cases hrun.symm.trans hdelivered
    exact ⟨rfl, rfl, FileTree.written_written _ _ htargets hdistinct⟩

/-! ### A request that overlays its environment -/

/-- A program that defines `x` twice and fits a machine of six words. -/
def twiceDefined : String := "1 x 0 0 1 R 4005 1 x 0 1 x 1 E 2000"

/-- A file with the program. -/
def oneFile : FileTree := { files := [(["a"], twiceDefined.toUTF8.toList)] }

/-- An environment under which the program does not fit, and the first definition holds. -/
def smallMachine : Environment := { machineSize := some "5", duplicates := some "first" }

/-- The listing goes to one file, and the table to another; the last definition holds. -/
def lastDefinition : Request :=
  { input := "a", output := some "b", symbols := some "c", policy := some .last }

/-- The same on a machine of six words. -/
def sixWords : Request := { lastDefinition with machineSize := some 6 }

/-- What the program is linked to on that machine. -/
def linkedFile : LinkResult where
  store := ⟨[
    ⟨0, 0, [⟨"x", some 0, some 0, some ⟨"a", 1, 3⟩⟩], [],
      [⟨.relative, 4, 5, 5, true, some ⟨"a", 1, 13⟩⟩]⟩,
    ⟨1, 1, [⟨"x", some 0, some 1, some ⟨"a", 1, 20⟩⟩], [⟨"x", some ⟨"a", 1, 26⟩⟩],
      [⟨.external, 2, 1, 0, true, some ⟨"a", 1, 32⟩⟩]⟩]⟩
  symbols := ⟨.known .last, [⟨"x", 0, 0⟩, ⟨"x", 1, 1⟩], [⟨"x", 1, 1⟩], true⟩
  memory := ⟨[4005, 2001]⟩
  warnings := []

theorem scan_twiceDefined : Token.scan twiceDefined "a" =
    [⟨"1", 0, ⟨"a", 1, 1⟩⟩, ⟨"x", 1, ⟨"a", 1, 3⟩⟩, ⟨"0", 2, ⟨"a", 1, 5⟩⟩, ⟨"0", 3, ⟨"a", 1, 7⟩⟩,
      ⟨"1", 4, ⟨"a", 1, 9⟩⟩, ⟨"R", 5, ⟨"a", 1, 11⟩⟩, ⟨"4005", 6, ⟨"a", 1, 13⟩⟩,
      ⟨"1", 7, ⟨"a", 1, 18⟩⟩, ⟨"x", 8, ⟨"a", 1, 20⟩⟩, ⟨"0", 9, ⟨"a", 1, 22⟩⟩,
      ⟨"1", 10, ⟨"a", 1, 24⟩⟩, ⟨"x", 11, ⟨"a", 1, 26⟩⟩, ⟨"1", 12, ⟨"a", 1, 28⟩⟩,
      ⟨"E", 13, ⟨"a", 1, 30⟩⟩, ⟨"2000", 14, ⟨"a", 1, 32⟩⟩] := by
  cbv

theorem checkedLink_sixWords :
    checkedLink { machineSize := 6, policy := .known .last } twiceDefined "a" =
      .ok linkedFile := by
  rw [checkedLink, linkText, scan_twiceDefined]
  rfl

theorem checkedLink_fiveWords :
    checkedLink { machineSize := 5, policy := .known .last } twiceDefined "a" =
      .error (.link ⟨.addressOutOfRange 5 5 (some 0), some ⟨"a", 1, 13⟩, 0⟩) := by
  rw [checkedLink, linkText, scan_twiceDefined]
  rfl

/-- With both options the request writes both files.  Without a size of its own the machine is that
of the environment, and nothing is written; neither is it where that machine has no words. -/
theorem linkRequest_allOrNothing_overlaid :
    (∃ report t', (linkRequest (FileTree.fileSystem []) smallMachine sixWords).run oneFile =
        (report, t') ∧
      report.exitCode = 0 ∧
        report.stdout = "Symbol Table\nx=0\nx=1\n\nMemory Map\n0:\t4005\n1:\t2001\n" ∧
        t'.readBytes "b" =
          .ok "Symbol Table\nx=0\nx=1\n\nMemory Map\n0:\t4005\n1:\t2001\n".toUTF8.toList ∧
        t'.readBytes "c" = .ok "Symbol Table\nx=0\nx=1\n".toUTF8.toList) ∧
    (∃ report t', (linkRequest (FileTree.fileSystem []) smallMachine lastDefinition).run oneFile =
        (report, t') ∧
      report.exitCode = 1 ∧ report.stdout = "" ∧ t' = oneFile) ∧
    ∃ report t', (linkRequest (FileTree.fileSystem []) { machineSize := some "0" }
        lastDefinition).run oneFile = (report, t') ∧
      report.exitCode = 2 ∧ report.stdout = "" ∧ t' = oneFile := by
  have hs : sourceOf oneFile [] lastDefinition.input = .ok twiceDefined := by decide +kernel
  have hb : oneFile.target? "b" = some ["b"] := by decide +kernel
  have hc : oneFile.target? "c" = some ["c"] := by decide +kernel
  refine ⟨?_, ?_, ?_⟩
  · have hsettings : sixWords.settingsIn smallMachine =
        { machineSize := 6, policy := .known .last } := by decide +kernel
    have hs₆ : sourceOf oneFile [] sixWords.input = .ok twiceDefined := hs
    have hrun : (linkRequest (FileTree.fileSystem []) smallMachine sixWords).run oneFile = _ := rfl
    obtain ⟨-, hok⟩ := linkRequest_allOrNothing hs₆ hrun "a"
    rw [hsettings] at hok
    obtain ⟨hexit, hstdout, hlisting, hsymbols, -⟩ := hok linkedFile checkedLink_sixWords
      (by
        rintro p (hp | hp) text
        · cases hp
          exact FileTree.exists_writeText_iff.2 ⟨_, hb⟩
        · cases hp
          exact FileTree.exists_writeText_iff.2 ⟨_, hc⟩)
      (by
        rintro p q hp hq
        cases hp
        cases hq
        rw [hb, hc]
        decide)
    have htext : linkedFile.listing sixWords.withModules =
        "Symbol Table\nx=0\nx=1\n\nMemory Map\n0:\t4005\n1:\t2001\n" := by decide +kernel
    have htable : linkedFile.symbols.listing ++ "\n" = "Symbol Table\nx=0\nx=1\n" := by
      decide +kernel
    rw [htext] at hstdout hlisting
    rw [htable] at hsymbols
    exact ⟨_, _, rfl, hexit, hstdout, hlisting "b" rfl, hsymbols "c" rfl⟩
  · have hsettings : lastDefinition.settingsIn smallMachine =
        { machineSize := 5, policy := .known .last } := by decide +kernel
    have hrun : (linkRequest (FileTree.fileSystem []) smallMachine lastDefinition).run oneFile =
      _ := rfl
    obtain ⟨herror, -⟩ := linkRequest_allOrNothing hs hrun "a"
    rw [hsettings] at herror
    obtain ⟨hstdout, hfiles, -, hexit⟩ := herror _ checkedLink_fiveWords
    exact ⟨_, _, rfl, hexit (.inl ⟨_, rfl⟩), hstdout, hfiles⟩
  · have hrun : (linkRequest (FileTree.fileSystem []) { machineSize := some "0" }
        lastDefinition).run oneFile = _ := rfl
    obtain ⟨herror, -⟩ := linkRequest_allOrNothing hs hrun "a"
    obtain ⟨hstdout, hfiles, hexit, -⟩ := herror _ (checkedLink_of_error rfl _ _)
    exact ⟨_, _, rfl, hexit ⟨_, rfl⟩, hstdout, hfiles⟩

end Linkage.Command
