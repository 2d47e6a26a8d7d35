import SchemaForge.Loader.Load

/-
How a load ends. Whatever it logs and requests, its ending depends on its source alone: `Ends` says so, with one lemma
for each way a load is put together.

A load should end with the document that its source holds, with an error of its own, or, for a file that is not there,
with that (`Documented`). Exactly five things break this (`load_documented_iff`): a path that is too long to ask for,
bytes that are no UTF-8, a text beyond the limits of the reader, a URL that cannot be taken apart, and a refusal that
carries no status.
-/

namespace SchemaForge

open Text

namespace Json

variable {files : FileStore} {p : Path}

theorem ofFile_eq_encoding_iff : (∃ m, ofFile files p = .error (.encoding m)) ↔
    ∃ bytes m, files.read p = .ok bytes ∧ Utf8.decode bytes = .error m := by
  unfold ofFile
  cases hread : files.read p with
  | error e => simp
  | ok bytes =>
    cases hdecode : Utf8.decode bytes with
    | error m => simp [hdecode]
    | ok text =>
      cases hparse : parse (String.ofList (unifyLineEnds text.toList)) with
      | ok v => simp [hdecode, hparse]
      | error e => cases e <;> simp [hdecode, hparse]

theorem ofFile_eq_excess_iff : (∃ x, ofFile files p = .error (.excess x)) ↔
    ∃ bytes text x, files.read p = .ok bytes ∧ Utf8.decode bytes = .ok text ∧
      parse (String.ofList (unifyLineEnds text.toList)) = .error (.excess x) := by
  unfold ofFile
  cases hread : files.read p with
  | error e => simp
  | ok bytes =>
    cases hdecode : Utf8.decode bytes with
    | error m => simp [hdecode]
    | ok text =>
      cases hparse : parse (String.ofList (unifyLineEnds text.toList)) with
      | ok v => simp [hdecode, hparse]
      | error e => cases e <;> simp [hdecode, hparse]

end Json

namespace Loader

/-! ## Endings -/

def Ends {α : Type} (x : Load α) (r : Except LoadError α) : Prop := ∀ t : Trace, (x.run.run t : Id _).1 = r

section

variable {α β : Type} {r : Except LoadError α}

theorem ends_pure (a : α) : Ends (pure a) (.ok a) := fun _ => rfl

theorem ends_throw (e : LoadError) : Ends (throw e : Load α) (.error e) := fun _ => rfl

theorem ends_note {level : Level} {text : String} {f : Unit → Load α} (h : Ends (f ()) r) :
    Ends (note level text >>= f) r :=
  fun _ => h _

theorem ends_modify {change : Trace → Trace} {f : Unit → Load α} (h : Ends (f ()) r) :
    Ends ((modify change : Load Unit) >>= f) r :=
  fun _ => h _

theorem ends_fail (text : String) (e : LoadError) : Ends (fail text e : Load α) (.error e) :=
  ends_note (ends_throw e)

theorem ends_fail_bind {text : String} {e : LoadError} {f : β → Load α} : Ends (fail text e >>= f) (.error e) :=
  fun _ => rfl

end

/-- The errors that a load has words of its own for, a missing file apart. -/
def LoadError.isReported : LoadError → Bool
  | .missing _ | .excess _ | .encoding _ | .unusable .. | .malformedUrl _ | .statusMissing => false
  | _ => true

/-- A load ends as it should if it gives what the source holds and that is a document, if its file is missing, or if it
    ends with an error of its own. -/
def Documented (holds : Loaded → Prop) (misses : Path → Prop) : Except LoadError Loaded → Prop
  | .ok l => holds l ∧ isDocument l.document = true
  | .error (.missing p) => misses p
  | .error e => e.isReported = true

variable {files : FileStore} {network : Network} {holds : Loaded → Prop} {misses : Path → Prop}

theorem ends_checked (source : String) (v : Json) : Ends (checked source v)
    (if isDocument v then .ok { source := source, document := v } else .error (.notDocument source)) := by
  refine ends_note ?_
  split
  · exact ends_pure _
  · exact ends_fail _ _

theorem documented_checked {source : String} {v : Json} (h : holds { source := source, document := v }) :
    Documented holds misses
      (if isDocument v then .ok { source := source, document := v } else .error (.notDocument source)) := by
  split
  · rename_i hv
    exact ⟨h, hv⟩
  · rfl

/-! ## Files -/

namespace File

def Holds (files : FileStore) (p : Path) (l : Loaded) : Prop :=
  l.source = p.toString ∧ Json.ofFile files p = .ok l.document

def Misses (files : FileStore) (p q : Path) : Prop := q = p ∧ files.exists? p = .ok false

/-- The path is too long to be asked for, or the file that is there is no UTF-8 or exceeds what can be read. -/
def Escapes (files : FileStore) (p : Path) : Prop :=
  p.holdsNul = false ∧ files.locate p = .error .nameTooLong ∨
    files.exists? p = .ok true ∧ ∃ bytes, files.read p = .ok bytes ∧
      ((∃ m, Utf8.decode bytes = .error m) ∨ ∃ text x, Utf8.decode bytes = .ok text ∧
        Json.parse (String.ofList (Json.unifyLineEnds text.toList)) = .error (.excess x))

variable {p : Path}

theorem exists?_eq_error_iff :
    (∃ e, files.exists? p = .error e) ↔ p.holdsNul = false ∧ files.locate p = .error .nameTooLong := by
  unfold FileStore.exists?
  cases p.holdsNul with
  | true => simp
  | false =>
    cases files.locate p with
    | ok found => simp
    | error e => cases e <;> simp

theorem escapes_of_unaskable {e : FileError} (h : files.exists? p = .error e) : Escapes files p :=
  Or.inl (exists?_eq_error_iff.mp ⟨e, h⟩)

theorem not_escapes_of_missing (h : files.exists? p = .ok false) : ¬ Escapes files p := by
  rintro (htoo | ⟨hexists, -⟩)
  · obtain ⟨e, he⟩ := exists?_eq_error_iff.mpr htoo
    rw [h] at he
    cases he
  · rw [h] at hexists
    cases hexists

/-- A file that is there can be read, unless reading it ends with one of the two defects that are let through. -/
theorem escapes_iff_of_exists (h : files.exists? p = .ok true) : Escapes files p ↔
    (∃ m, Json.ofFile files p = .error (.encoding m)) ∨ ∃ x, Json.ofFile files p = .error (.excess x) := by
  rw [Json.ofFile_eq_encoding_iff, Json.ofFile_eq_excess_iff, Escapes, ← exists?_eq_error_iff, h]
  simp only [reduceCtorEq, exists_false, false_or, true_and, and_or_left, exists_or, exists_and_left]

/-- What a file that is there holds decides, whatever its extension. -/
theorem ends_readable (hexists : files.exists? p = .ok true) {r : Except LoadError Loaded}
    (h : Ends (match Json.ofFile files p with
      | .ok v => checked p.toString v
      | .error (.text e) => fail (LoadError.invalidFile p e).message (.invalidFile p e)
      | .error (.file e) => fail (LoadError.unreadable p e).message (.unreadable p e)
      | .error (.excess x) => throw (.excess x)
      | .error (.encoding m) => throw (.encoding m)) r) : Ends (fromFile files p) r := by
  unfold fromFile
  refine ends_note ?_
  rw [hexists]
  simp only
  split
  · exact ends_note h
  · exact h

theorem ends_unaskable {e : FileError} (h : files.exists? p = .error e) :
    Ends (fromFile files p) (.error (.unusable p e)) := by
  unfold fromFile
  rw [h]
  exact ends_note (ends_throw _)

theorem ends_missing (h : files.exists? p = .ok false) : Ends (fromFile files p) (.error (.missing p)) := by
  unfold fromFile
  rw [h]
  exact ends_note (ends_fail _ _)

/-- How a load from a file ends, and whether that is as it should be. -/
theorem ends_fromFile (files : FileStore) (p : Path) : ∃ r, Ends (fromFile files p) r ∧
    (Documented (Holds files p) (Misses files p) r ↔ ¬ Escapes files p) := by
  cases hexists : files.exists? p with
  | error e =>
    exact ⟨_, ends_unaskable hexists,
      iff_of_false Bool.false_ne_true (not_not_intro (escapes_of_unaskable hexists))⟩
  | ok found =>
    cases found with
    | false =>
      exact ⟨_, ends_missing hexists, iff_of_true ⟨rfl, hexists⟩ (not_escapes_of_missing hexists)⟩
    | true =>
      have hends := fun r => @ends_readable files p hexists r
      rw [escapes_iff_of_exists hexists]
      cases hfile : Json.ofFile files p with
      | ok v =>
        rw [hfile] at hends
        exact ⟨_, hends _ (ends_checked _ _), iff_of_true (documented_checked ⟨rfl, hfile⟩) (by simp)⟩
      | error d =>
        rw [hfile] at hends
        cases d with
        | text e => exact ⟨_, hends _ (ends_fail _ _), iff_of_true rfl (by simp)⟩
        | file e => exact ⟨_, hends _ (ends_fail _ _), iff_of_true rfl (by simp)⟩
        | excess x => exact ⟨_, hends _ (ends_throw _), iff_of_false Bool.false_ne_true (by simp)⟩
        | encoding m => exact ⟨_, hends _ (ends_throw _), iff_of_false Bool.false_ne_true (by simp)⟩

end File

/-! ## URLs -/

namespace Address

def Holds (network : Network) (url : String) (l : Loaded) : Prop :=
  l.source = url ∧ ∃ status body contentType, network url = .answered status body contentType false ∧
    Json.parse body = .ok l.document

/-- The URL cannot be taken apart, or it is asked and the reply is a refusal with no status, or one that is not refused
    and whose text exceeds what can be read. -/
def Escapes (network : Network) (url : String) : Prop :=
  (∃ e, Url.ofString url = .error e) ∨ ∃ parts, Url.ofString url = .ok parts ∧ parts.isAbsolute = true ∧
    (network url = .statusMissing ∨ ∃ status body contentType x, network url = .answered status body contentType false ∧
      Json.parse body = .error (.excess x))

variable {url : String}

theorem escapes_iff_of_absolute {parts : Url} (hparts : Url.ofString url = .ok parts) (h : parts.isAbsolute = true) :
    Escapes network url ↔ network url = .statusMissing ∨ ∃ status body contentType x,
      network url = .answered status body contentType false ∧ Json.parse body = .error (.excess x) := by
  simp only [Escapes, hparts, reduceCtorEq, exists_false, false_or, Except.ok.injEq, exists_eq_left', h, true_and]

theorem ends_refused (status : Int) (body : String) (contentType : Option String) :
    Ends (fromReply url (.answered status body contentType true)) (.error (.refused url status)) := ends_fail_bind

/-- A reply that is not refused ends as its body does. -/
theorem ends_accepted {status : Int} {body : String} (contentType : Option String) {r : Except LoadError Loaded}
    (h : Ends (match Json.parse body with
      | .ok v => checked url v
      | .error (.malformed e) => fail (LoadError.invalidReply url e).message (.invalidReply url e)
      | .error (.excess x) => throw (.excess x)) r) :
    Ends (fromReply url (.answered status body contentType false)) r := by
  simp only [fromReply, Bool.false_eq_true, if_false]
  split
  · exact ends_note h
  · exact h

theorem ends_answered {status : Int} {body : String} {contentType : Option String} {refused : Bool}
    (h : network url = .answered status body contentType refused) :
    ∃ r, Ends (fromReply url (.answered status body contentType refused)) r ∧
      (Documented (Holds network url) (fun _ => False) r ↔
        ¬ (refused = false ∧ ∃ x, Json.parse body = .error (.excess x))) := by
  cases refused with
  | true => exact ⟨_, ends_refused status body contentType, iff_of_true rfl (by simp)⟩
  | false =>
    have hends := fun r => @ends_accepted url status body contentType r
    cases hparse : Json.parse body with
    | ok v =>
      rw [hparse] at hends
      exact ⟨_, hends _ (ends_checked _ _), iff_of_true (documented_checked ⟨rfl, _, _, _, h, hparse⟩) (by simp)⟩
    | error e =>
      rw [hparse] at hends
      cases e with
      | malformed e => exact ⟨_, hends _ (ends_fail _ _), iff_of_true rfl (by simp)⟩
      | excess x => exact ⟨_, hends _ (ends_throw _), iff_of_false Bool.false_ne_true (by simp)⟩

/-- An absolute URL is asked for, and the reply decides. -/
theorem ends_asked {parts : Url} (hparts : Url.ofString url = .ok parts) (h : parts.isAbsolute = true)
    {timeout : Json} {r : Except LoadError Loaded} (hreply : Ends (fromReply url (network url)) r) :
    Ends (fromUrl network url timeout) r := by
  unfold fromUrl
  rw [hparts]
  simp only [h]
  exact ends_note (ends_modify hreply)

theorem ends_relative {parts : Url} (hparts : Url.ofString url = .ok parts) (h : parts.isAbsolute = false)
    (timeout : Json) : Ends (fromUrl network url timeout) (.error (.invalidUrl url)) := by
  unfold fromUrl
  rw [hparts]
  simp only [h]
  exact ends_note ends_fail_bind

/-- How a load from a URL ends, and whether that is as it should be. -/
theorem ends_fromUrl (network : Network) (url : String) (timeout : Json) :
    ∃ r, Ends (fromUrl network url timeout) r ∧
      (Documented (Holds network url) (fun _ => False) r ↔ ¬ Escapes network url) := by
  cases hparts : Url.ofString url with
  | error e =>
    have hends : Ends (fromUrl network url timeout) (.error (.malformedUrl e)) := by
      unfold fromUrl
      rw [hparts]
      exact ends_note (ends_throw _)
    exact ⟨_, hends, iff_of_false Bool.false_ne_true (not_not_intro (Or.inl ⟨e, hparts⟩))⟩
  | ok parts =>
    cases habsolute : parts.isAbsolute with
    | false =>
      exact ⟨_, ends_relative hparts habsolute timeout, iff_of_true rfl (by simp [Escapes, hparts, habsolute])⟩
    | true =>
      have hends := fun r => @ends_asked network url parts hparts habsolute timeout r
      rw [escapes_iff_of_absolute hparts habsolute]
      cases hreply : network url with
      | answered status body contentType refused =>
        rw [hreply] at hends
        obtain ⟨r, hr, hdocumented⟩ := ends_answered hreply
        exact ⟨r, hends r hr, hdocumented.trans (by simp)⟩
      | timedOut =>
        rw [hreply] at hends
        exact ⟨_, hends _ (ends_fail _ _), iff_of_true rfl (by simp)⟩
      | unreachable text =>
        rw [hreply] at hends
        exact ⟨_, hends _ (ends_fail _ _), iff_of_true rfl (by simp)⟩
      | statusMissing =>
        rw [hreply] at hends
        exact ⟨_, hends _ (ends_throw _), iff_of_false Bool.false_ne_true (by simp)⟩
      | failed text =>
        rw [hreply] at hends
        exact ⟨_, hends _ (ends_fail _ _), iff_of_true rfl (by simp)⟩

end Address

/-! ## Sources -/

namespace Source

def Holds (files : FileStore) (network : Network) (s : Source) : Loaded → Prop :=
  match given s.file, given s.url with
  | some file, none => File.Holds files (Path.ofString file)
  | none, some url => Address.Holds network url
  | _, _ => fun _ => False

def Misses (files : FileStore) (s : Source) : Path → Prop :=
  match given s.file, given s.url with
  | some file, none => File.Misses files (Path.ofString file)
  | _, _ => fun _ => False

/-- The one source that is given is a file or a URL that errors escape from. -/
def Escapes (files : FileStore) (network : Network) (s : Source) : Prop :=
  match given s.file, given s.url with
  | some file, none => File.Escapes files (Path.ofString file)
  | none, some url => Address.Escapes network url
  | _, _ => False

end Source

/-- A load ends as it should exactly when its source is none of those that errors escape from. -/
theorem load_documented_iff (files : FileStore) (network : Network) (s : Source) :
    Documented (s.Holds files network) (s.Misses files) (load files network s).1 ↔ ¬ s.Escapes files network := by
  have hload : ∀ {r}, Ends (fromSource files network s) r → (load files network s).1 = r := fun h => h {}
  unfold fromSource at hload
  unfold Source.Holds Source.Misses Source.Escapes
  cases hfile : given s.file with
  | none =>
    cases hurl : given s.url with
    | none =>
      simp only [hfile, hurl] at hload ⊢
      rw [hload (ends_fail _ _)]
      exact iff_of_true rfl not_false
    | some url =>
      simp only [hfile, hurl] at hload ⊢
      obtain ⟨r, hends, hr⟩ := Address.ends_fromUrl network url s.timeout
      rw [hload hends]
      exact hr
  | some file =>
    cases hurl : given s.url with
    | none =>
      simp only [hfile, hurl] at hload ⊢
      obtain ⟨r, hends, hr⟩ := File.ends_fromFile files (Path.ofString file)
      rw [hload hends]
      exact hr
    | some url =>
      simp only [hfile, hurl] at hload ⊢
      rw [hload (ends_fail _ _)]
      exact iff_of_true rfl not_false

/-- A file whose last byte is no UTF-8. -/
def strayByte : FileStore := { entries := [(["schema.json"], .file [0x7b, 0x22, 0xff])] }

/-- The defect of the encoding is what the load ends with. -/
theorem stray_byte_escapes : ∃ m, (load strayByte (fun _ => .timedOut) { file := some "schema.json" }).1 =
      .error (.encoding m) ∧
    ¬ Documented (Source.Holds strayByte (fun _ => .timedOut) { file := some "schema.json" })
      (Source.Misses strayByte { file := some "schema.json" })
      (load strayByte (fun _ => .timedOut) { file := some "schema.json" }).1 := by
  refine ⟨⟨2, 0xff, 1, .startByte⟩, ?_, ?_⟩
  · rfl
  · rw [load_documented_iff]
    refine not_not_intro (Or.inr ⟨rfl, _, rfl, Or.inl ⟨⟨2, 0xff, 1, .startByte⟩, rfl⟩⟩)

end Loader

end SchemaForge
