import SchemaForge.CommandLine.Run
import SchemaForge.Proofs.Files.Writing
import SchemaForge.Proofs.Runs

/-
What a run of the command delivers. A run has something to deliver when it has an input, a language that is supported,
a document and settings that load, and a generation from them that succeeds (`Generates`). It delivers the generated
text to the file that the settings name, or to the standard output if they name none, which has to take it
(`Deliverable`).

`Ends` has a constructor for each way a run can end, with what it leaves behind: it stops before there is anything to
deliver, prints, cannot deliver, is broken off at the file or behind it, or saves. `delivery_of_run` reads the exit code,
the text and the files off it.
-/

namespace SchemaForge.CommandLine

open Generation Runs

/-! ## What there is to deliver -/

/-- The document that the input of a run holds. A file goes before an address, and that before the standard input. -/
inductive Supplies (i : Invocation) (a : Arguments) : Json → Prop
  | file {file : String} {loaded : Loader.Loaded} : present a.file = some file →
      (Loader.load i.files i.network { file := some file }).1 = .ok loaded → Supplies i a loaded.document
  | url {url : String} {loaded : Loader.Loaded} : present a.file = none → present a.url = some url →
      (Loader.load i.files i.network { url := some url }).1 = .ok loaded → Supplies i a loaded.document
  | stdin {document : Json} : present a.file = none → present a.url = none → a.stdin = true →
      Json.parse i.stdin = .ok document → Supplies i a document

/-- What a run generates from. -/
structure Prepared (i : Invocation) (a : Arguments) (language : String) (document : Json) (s : Settings) : Prop where
  named : a.language = some language
  supported : targets.supports language = true
  supplied : Supplies i a document
  configured : readSettings i a language = .ok s

/-- Under these settings the generation succeeds with `g`. -/
def Generates (i : Invocation) (a : Arguments) (s : Settings) (g : Generated) : Prop :=
  ∃ language document outcome, Prepared i a language document s ∧
    generateFromDocument i.files document language (.settings s) none = .ok outcome ∧ outcome.result = .ok g

/-- The output file can be written with this text, and that reported, or the standard output takes the text. -/
def Deliverable (i : Invocation) (a : Arguments) (s : Settings) (g : Generated) : Prop :=
  if s.outputFile.truthy then
    ∃ language path, a.language = some language ∧ outputPath s.outputFile = .ok path ∧ i.files.Writable path ∧
      i.unencodable g.code = none ∧ ∀ text ∈ savedReport a language path g, i.outlet.refuses text = none
  else i.outlet.refuses g.code = none

/-- The run comes to an output file that can be written. -/
def ReachesWrite (i : Invocation) (a : Arguments) : Prop :=
  ∃ s g path, Generates i a s g ∧ s.outputFile.truthy = true ∧ outputPath s.outputFile = .ok path ∧
    i.files.Writable path

variable {i : Invocation} {a : Arguments}

theorem load_eq_ok {source : Loader.Source} {document : Json} : readDocument.load i source = .ok document ↔
    ∃ loaded, (Loader.load i.files i.network source).1 = .ok loaded ∧ loaded.document = document := by
  unfold readDocument.load
  cases (Loader.load i.files i.network source).1 with
  | ok loaded =>
    refine ⟨fun h => ⟨loaded, rfl, Except.ok.inj h⟩, fun hr => ?_⟩
    obtain ⟨_, h, rfl⟩ := hr
    cases h
    rfl
  | error e =>
    refine ⟨fun h => ?_, fun hr => ?_⟩
    · cases h
    · obtain ⟨_, h, -⟩ := hr
      cases h

theorem supplies_iff {document : Json} :
    Supplies i a document ↔ a.hasInput = true ∧ readDocument i a = .ok document := by
  unfold Arguments.hasInput readDocument
  refine ⟨fun h => ?_, fun ⟨hinput, h⟩ => ?_⟩
  · cases h with
    | file hfile hload =>
      simp only [hfile]
      exact ⟨rfl, load_eq_ok.mpr ⟨_, hload, rfl⟩⟩
    | url hfile hurl hload =>
      simp only [hfile, hurl]
      exact ⟨rfl, load_eq_ok.mpr ⟨_, hload, rfl⟩⟩
    | stdin hfile hurl hstdin hparse =>
      simp only [hfile, hurl, hstdin, hparse]
      exact ⟨rfl, rfl⟩
  · cases hfile : present a.file with
    | some file =>
      simp only [hfile] at h
      obtain ⟨loaded, hload, rfl⟩ := load_eq_ok.mp h
      exact .file hfile hload
    | none =>
      cases hurl : present a.url with
      | some url =>
        simp only [hfile, hurl] at h
        obtain ⟨loaded, hload, rfl⟩ := load_eq_ok.mp h
        exact .url hfile hurl hload
      | none =>
        simp only [hfile, hurl] at h hinput
        refine .stdin hfile hurl hinput ?_
        cases hparse : Json.parse i.stdin with
        | ok d =>
          rw [hparse] at h
          exact congrArg _ (Except.ok.inj h)
        | error e =>
          rw [hparse] at h
          cases h

/-- A run generates from one document, for one language and with one choice of settings. -/
theorem Prepared.unique {l₁ l₂ : String} {d₁ d₂ : Json} {s₁ s₂ : Settings} (h₁ : Prepared i a l₁ d₁ s₁)
    (h₂ : Prepared i a l₂ d₂ s₂) : l₁ = l₂ ∧ d₁ = d₂ ∧ s₁ = s₂ := by
  obtain rfl : l₁ = l₂ := Option.some.inj (h₁.named.symm.trans h₂.named)
  refine ⟨rfl, ?_, Except.ok.inj (h₁.configured.symm.trans h₂.configured)⟩
  exact Except.ok.inj ((supplies_iff.mp h₁.supplied).2.symm.trans (supplies_iff.mp h₂.supplied).2)

theorem generates_iff {language : String} {document : Json} {s s' : Settings} {g : Generated}
    (h : Prepared i a language document s) : Generates i a s' g ↔ s' = s ∧ ∃ outcome,
      generateFromDocument i.files document language (.settings s) none = .ok outcome ∧ outcome.result = .ok g := by
  refine ⟨fun hr => ?_, fun hr => ?_⟩
  · obtain ⟨l, d, outcome, h', hgenerated⟩ := hr
    obtain ⟨rfl, rfl, rfl⟩ := h.unique h'
    exact ⟨rfl, outcome, hgenerated⟩
  · obtain ⟨rfl, outcome, hgenerated⟩ := hr
    exact ⟨language, document, outcome, h, hgenerated⟩

theorem Generates.unique {s₁ s₂ : Settings} {g₁ g₂ : Generated} (h₁ : Generates i a s₁ g₁)
    (h₂ : Generates i a s₂ g₂) : s₁ = s₂ ∧ g₁ = g₂ := by
  obtain ⟨_, _, _, hprepared, hgenerate₁, hresult₁⟩ := h₁
  obtain ⟨rfl, _, hgenerate₂, hresult₂⟩ := (generates_iff hprepared).mp h₂
  obtain rfl := Except.ok.inj (hgenerate₁.symm.trans hgenerate₂)
  exact ⟨rfl, Except.ok.inj (hresult₁.symm.trans hresult₂)⟩

section

variable {files : FileStore} {printed : String}

end

/-! ## The ways a run ends -/

inductive Ends (i : Invocation) (a : Arguments) : Finish → Prop
  /-- There is nothing to deliver. -/
  | stopped {output : String} : (∀ s g, ¬ Generates i a s g) →
      Ends i a { code := 1, output := output, files := i.files }
  | printed {s : Settings} {g : Generated} : Generates i a s g → s.outputFile.truthy = false → Deliverable i a s g →
      Ends i a { code := 0, output := g.code, files := i.files }
  | undelivered {s : Settings} {g : Generated} {output : String} : Generates i a s g → ¬ Deliverable i a s g →
      Ends i a { code := 1, output := output, files := i.files }
  /-- The file is there, but without the text, or the run cannot say so. -/
  | brokenOff {s : Settings} {g : Generated} {files : FileStore} {output : String} : Generates i a s g →
      ¬ Deliverable i a s g → ReachesWrite i a → Ends i a { code := 1, output := output, files := files }
  | saved {s : Settings} {g : Generated} {path : Path} {files : FileStore} {output : String} : Generates i a s g →
      s.outputFile.truthy = true → outputPath s.outputFile = .ok path → Deliverable i a s g →
      i.files.write path g.code.toUTF8.toList = .ok files → Ends i a { code := 0, output := output, files := files }

end SchemaForge.CommandLine
