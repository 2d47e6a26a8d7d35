import SchemaForge.Proofs.Java.TypeNames

/-
The import list of a file of classes. A field goes by a qualified name if the scalar table has one for it, or if it
stands for itself and is qualified (`TypeMapper.qualifiedName?`); its member is then written by the simple name. Each
class collects such names for itself. Put together they are the names of all fields in the order of the file, with
repetitions left out, and those that the base list lacks come before it (`importList`).
-/

namespace SchemaForge.Java

open Generation Generation.Pass Naming Template

/-! ## Qualified names -/

/-- What follows the last dot. -/
def simpleName (q : String) : String := String.ofList (q.toList.reverse.takeWhile (· != '.')).reverse

def qualified? : Json → Option String
  | .str q => if '.' ∈ q.toList then some q else none
  | _ => none

theorem qualified?_str (n : String) : qualified? (.str n) = if '.' ∈ n.toList then some n else none := rfl

/-- The qualified name of a field's type, for a list that of its elements. Classes of the schema have none. -/
def TypeMapper.qualifiedName? (mapper : TypeMapper) (f : Field) : Option String :=
  if mapper.asks f then none else qualified? ((Entries.get? f.type mapper.scalars).getD f.type)

theorem dotted_of_qualified? {v : Json} {q : String} (h : qualified? v = some q) : '.' ∈ q.toList := by
  unfold qualified? at h
  split at h
  · split at h
    · rename_i hdot
      rwa [← Option.some.inj h]
    · cases h
  · cases h

theorem ne_blank_of_qualifiedName? {mapper : TypeMapper} {f : Field} {q : String}
    (h : mapper.qualifiedName? f = some q) : q ≠ "" := by
  unfold TypeMapper.qualifiedName? at h
  split at h
  · cases h
  · rintro rfl
    exact List.not_mem_nil (dotted_of_qualified? h)

theorem exists_cutLast? {cs : List Char} (h : '.' ∈ cs) :
    ∃ owner, Text.cutLast? '.' cs = some (owner, (cs.reverse.takeWhile (· != '.')).reverse) := by
  unfold Text.cutLast?
  rw [if_pos (List.contains_iff_mem.mpr h)]
  exact ⟨_, rfl⟩

/-- A native type is imported if it is qualified, and then it is written by its simple name. -/
theorem ofNative_eq_ok {native : Json} {type : JavaType} (h : ofNative native = .ok type) :
    type.qualified = qualified? native ∧ ∀ q, qualified? native = some q → type.text = simpleName q := by
  unfold ofNative at h
  cases hdotted : native.hasText "." with
  | error e =>
    rw [hdotted] at h
    cases h
  | ok dotted =>
    rw [hdotted] at h
    cases native with
    | str n =>
      have hdot : dotted = true ↔ '.' ∈ n.toList := by
        rw [← Except.ok.inj hdotted]
        exact occursIn_singleton
      rw [qualified?_str]
      cases dotted with
      | false =>
        cases h
        rw [if_neg (fun hn => Bool.false_ne_true (hdot.mpr hn))]
        exact ⟨rfl, fun q hq => by cases hq⟩
      | true =>
        have hn := hdot.mp rfl
        obtain ⟨owner, hcut⟩ := exists_cutLast? hn
        rw [if_pos hn]
        simp only [bind, Except.bind, hcut] at h
        cases h
        exact ⟨rfl, fun q hq => Option.some.inj hq ▸ rfl⟩
    | _ =>
      cases dotted with
      | false =>
        cases h
        exact ⟨rfl, fun q hq => by cases hq⟩
      | true => cases h

/-- The import of a member is that of its field, and it is written accordingly. -/
def MemberImported (mapper : TypeMapper) (f : Field) (x : Member) : Prop :=
  x.field = f ∧ x.names.type.qualified = mapper.qualifiedName? f ∧
    ∀ q, mapper.qualifiedName? f = some q → x.type = written f (simpleName q)

theorem resolve_imported {mapper : TypeMapper} {f : Field} {D : List String} {s t : Session} {type : JavaType}
    (h : Yields (mapper.resolve f) s type t) (hs : Numbered rules D s.names) :
    type.qualified = mapper.qualifiedName? f ∧
      ∀ q, mapper.qualifiedName? f = some q → type.text = written f (simpleName q) := by
  obtain ⟨native, base, hnative, hbase, rfl⟩ := yields_resolve h
  have hlist : ∀ {q : Option String}, base.qualified = q ∧ (∀ n, q = some n → base.text = simpleName n) →
      (if f.list then base.listOf else base).qualified = q ∧
        ∀ n, q = some n → (if f.list then base.listOf else base).text = written f (simpleName n) := by
    rintro q ⟨hqualified, htext⟩
    unfold written
    split
    · exact ⟨hqualified, fun n hn => by rw [← htext n hn]; rfl⟩
    · exact ⟨hqualified, htext⟩
  refine hlist ?_
  unfold TypeMapper.native at hnative
  unfold TypeMapper.qualifiedName? TypeMapper.asks
  cases hscalar : Entries.get? f.type mapper.scalars with
  | some scalar =>
    rw [hscalar] at hnative
    obtain ⟨rfl, -⟩ := yields_pure.mp hnative
    exact ofNative_eq_ok hbase
  | none =>
    rw [hscalar] at hnative
    cases hknown : mapper.schema.isModel f.type || mapper.schema.isEnum f.type with
    | false =>
      simp only [hknown] at hnative
      obtain ⟨rfl, -⟩ := yields_pure.mp hnative
      exact ofNative_eq_ok hbase
    | true =>
      simp only [hknown, if_true, yields_bind, yields_pure] at hnative
      obtain ⟨n, s₁, hn, rfl, -⟩ := hnative
      obtain ⟨rfl, -⟩ := className_of_numbered hn hs
      rw [ofNative_given] at hbase
      cases hbase
      exact ⟨rfl, fun q hq => by cases hq⟩

theorem member_imported {mapper : TypeMapper} (f : Field) (D : List String) (s : Session) (x : Member) (t : Session)
    (h : Yields (member mapper f) s x t) (hs : Numbered rules D s.names) :
    Numbered rules (askAll D (fieldRequests mapper f)) t.names ∧ MemberImported mapper f x := by
  obtain ⟨hf, -, -, -, u, htype, -⟩ := yields_member h
  exact ⟨(member_of_numbered f D s x t h hs).1, hf, resolve_imported htype hs⟩

theorem ofModel_imported {comments : Bool} {mapper : TypeMapper} (m : Model) (D : List String) (s : Session)
    (c : ClassDecl) (t : Session) (h : Yields (ClassDecl.ofModel comments mapper m) s c t)
    (hs : Numbered rules D s.names) :
    Numbered rules (askAll D (modelRequests mapper m)) t.names ∧
      List.Forall₂ (MemberImported mapper) m.fields c.members := by
  obtain ⟨s₁, s₂, s₃, hnames, hname, hmembers, -⟩ := yields_ofModel h
  obtain ⟨-, hs₂⟩ := className_of_numbered hname (hnames ▸ hs)
  exact ⟨(ofModel_of_numbered m D s c t h hs).1, (mapM_of_numbered (fieldRequests mapper)
    (fun _ => MemberImported mapper) member_imported (fun _ _ _ _ _ h => h) m.fields hmembers hs₂).2⟩

/-! ## The head of a file -/

def importLine (name : String) : String := if name = "" then "\n" else "import " ++ name ++ ";\n"

def headText (package : Json) (imports : List String) : String :=
  "package " ++ package.display ++ ";\n" ++ (if imports = [] then "" else "\n" ++ String.join (imports.map importLine))

theorem render_importLine {bound : List (String × Json)} {last : Bool} (name : String) :
    renderAll { bound := ("package", .str name) :: bound, last := last }
        [.branch (.var "package") [.text "import ", .out (.var "package"), .text ";\n"] [.text "\n"]] =
      .ok (importLine name) := by
  have hbranch : renderAll { bound := ("package", .str name) :: bound, last := last }
      (if (Json.str name).truthy then [.text "import ", .out (.var "package"), .text ";\n"] else [.text "\n"]) =
        .ok (importLine name) := by
    unfold importLine
    by_cases h : name = ""
    · simp [h, Json.truthy, Except.map]
    · simp [h, Json.truthy, Except.bind, Except.map, String.append_assoc]
  rw [renderAll_branch (by simp) hbranch]
  simp [Except.map]

theorem render_packageTemplate (package : Json) (imports : List String) :
    packageTemplate.render [("package_name", package), ("imports", .arr (imports.map .str))] =
      .ok (headText package imports) := by
  have hlines : renderAll { bound := [("package_name", package), ("imports", .arr (imports.map .str))] }
      (if (Json.arr (imports.map .str)).truthy then
        [.text "\n", .each "package" (.var "imports") [
          .branch (.var "package") [.text "import ", .out (.var "package"), .text ";\n"] [.text "\n"]]] else []) =
        .ok (if imports = [] then "" else "\n" ++ String.join (imports.map importLine)) := by
    cases imports with
    | nil => simp [Json.truthy]
    | cons name names =>
      rw [if_pos (by simp [Json.truthy]), if_neg (List.cons_ne_nil name names), renderAll_text,
        renderAll_each Json.str (fun name _ => importLine name) (name :: names) (by simp)
          (fun name _ last => render_importLine name)]
      simp [lines_eq_join, Except.map]
  unfold Template.render headText packageTemplate
  rw [if_neg (by simp [Entries.has])]
  simp only [renderAll_text, renderAll_out]
  rw [renderAll_branch (by simp) hlines]
  simp [Except.bind, Except.map, String.append_assoc]

/-! ## The imports of the classes -/

/-- The qualified names of all fields, in their order. -/
def qualifiedNames (mapper : TypeMapper) (models : List Model) : List String :=
  models.flatMap (fun m => m.fields.filterMap mapper.qualifiedName?)

/-- Each of them where it first occurs, unless it is in the base list. -/
def neededImports (mapper : TypeMapper) (models : List Model) : List String :=
  (qualifiedNames mapper models).eraseDups.filter (· ∉ classImports)

def importList (mapper : TypeMapper) (models : List Model) : List String :=
  if neededImports mapper models = [] then classImports else neededImports mapper models ++ "" :: classImports

theorem headImports_eq (mapper : TypeMapper) (models : List Model) :
    headImports (qualifiedNames mapper models).eraseDups = importList mapper models := by
  have hneeded : (qualifiedNames mapper models).eraseDups.filter (!classImports.contains ·) =
      neededImports mapper models :=
    List.filter_congr fun name _ => by simp
  unfold headImports importList
  rw [hneeded]
  cases neededImports mapper models with
  | nil => rfl
  | cons name names => simp

/-- A class collects the qualified names of its fields. -/
theorem imports_eq {mapper : TypeMapper} {c : ClassDecl} {fs : List Field}
    (h : List.Forall₂ (MemberImported mapper) fs c.members) :
    c.imports = (fs.filterMap mapper.qualifiedName?).foldl Imports.add {} := by
  unfold ClassDecl.imports
  generalize c.members = xs at h
  generalize ({} : Imports) = start
  induction h generalizing start with
  | nil => rfl
  | @cons f x fs xs hx _ ih =>
    obtain ⟨-, hqualified, -⟩ := hx
    rw [List.foldl_cons, ih, List.filterMap_cons]
    unfold JavaType.importInto
    rw [hqualified]
    cases mapper.qualifiedName? f <;> rfl

/-- Drained, the merged collections of the classes are the names of all fields, each once. -/
theorem drain_imports {mapper : TypeMapper} {es : List (Model × ClassDecl)}
    (h : ∀ e ∈ es, List.Forall₂ (MemberImported mapper) e.1.fields e.2.members) :
    ((es.map (·.2.imports)).foldl Imports.merge {}).drain.1 = (qualifiedNames mapper (es.map (·.1))).eraseDups := by
  have hcollected : es.map (·.2.imports) =
      ((es.map (·.1)).map (fun m => m.fields.filterMap mapper.qualifiedName?)).map
        (fun names => names.foldl Imports.add {}) := by
    rw [List.map_map, List.map_map]
    exact List.map_congr_left fun e he => imports_eq (h e he)
  rw [hcollected, Imports.merge_all, ← List.flatMap_def]
  show (List.foldl Imports.add {} (qualifiedNames mapper (es.map (·.1)))).names = _
  rw [Imports.names_foldl_add]
  simp

theorem mem_qualifiedNames {mapper : TypeMapper} {es : List (Model × ClassDecl)}
    (h : ∀ e ∈ es, List.Forall₂ (MemberImported mapper) e.1.fields e.2.members) {q : String} :
    q ∈ qualifiedNames mapper (es.map (·.1)) ↔
      ∃ e ∈ es, ∃ x ∈ e.2.members, mapper.qualifiedName? x.field = some q := by
  unfold qualifiedNames
  rw [List.mem_flatMap]
  refine ⟨fun hr => ?_, fun hr => ?_⟩
  · obtain ⟨m, hm, hq⟩ := hr
    obtain ⟨e, he, rfl⟩ := List.mem_map.mp hm
    obtain ⟨f, hf, hq⟩ := List.mem_filterMap.mp hq
    obtain ⟨x, hx, rfl, -⟩ := (partner_of_forall₂ (h e he)).1 f hf
    exact ⟨e, he, x, hx, hq⟩
  · obtain ⟨e, he, x, hx, hq⟩ := hr
    obtain ⟨f, hf, rfl, -⟩ := (partner_of_forall₂ (h e he)).2 x hx
    exact ⟨e.1, List.mem_map_of_mem he, List.mem_filterMap.mpr ⟨x.field, hf, hq⟩⟩

/-! ## The list -/

section

variable {mapper : TypeMapper} {models : List Model} {name : String}

theorem nodup_neededImports : (neededImports mapper models).Nodup :=
  List.Pairwise.filter _ (Imports.nodup_eraseDups (qualifiedNames mapper models))

theorem mem_neededImports :
    name ∈ neededImports mapper models ↔ name ∈ qualifiedNames mapper models ∧ name ∉ classImports := by
  unfold neededImports
  rw [List.mem_filter, List.mem_eraseDups, decide_eq_true_iff]

theorem count_classImports (h : name ≠ "") : classImports.count name ≤ 1 := by
  by_cases hmem : name ∈ classImports
  · have : ∀ n ∈ classImports, n ≠ "" → classImports.count n ≤ 1 := by decide
    exact this name hmem h
  · rw [List.count_eq_zero.mpr hmem]
    exact Nat.zero_le 1

theorem count_importList (h : name ≠ "") :
    (importList mapper models).count name = (neededImports mapper models).count name + classImports.count name := by
  unfold importList
  split
  · rename_i hnone
    rw [hnone, List.count_nil, Nat.zero_add]
  · rw [List.count_append, List.count_cons_of_ne (Ne.symm h)]

theorem count_importList_le (h : name ≠ "") : (importList mapper models).count name ≤ 1 := by
  rw [count_importList h]
  by_cases hneeded : name ∈ neededImports mapper models
  · rw [List.count_eq_zero.mpr (mem_neededImports.mp hneeded).2]
    exact List.nodup_iff_count.mp nodup_neededImports name
  · rw [List.count_eq_zero.mpr hneeded, Nat.zero_add]
    exact count_classImports h

theorem mem_importList (h : name ≠ "") :
    name ∈ importList mapper models ↔ name ∈ qualifiedNames mapper models ∨ name ∈ classImports := by
  rw [← List.count_pos_iff, count_importList h, Nat.add_pos_iff_pos_or_pos, List.count_pos_iff, List.count_pos_iff,
    mem_neededImports]
  tauto

end

/-- The classes that the text of the class pass is printed from, with the import list of its head. -/
theorem imports_of_classPass {settings : Settings} {schema : Schema} {s t : Session} {text : String}
    (h : Yields (classPass settings schema) s text t) :
    ∃ mapper es, newMapper settings schema = .ok mapper ∧ (Output.classes es).Prints settings schema text ∧
      text = fileOf (headText settings.packageName (importList mapper (es.map (·.1)))) (es.map (·.2.source)) ∧
      requests settings schema .classes = (es.map (·.1)).flatMap (modelRequests mapper) ∧
      ∀ e ∈ es, Emission e.1 e.2 ∧ ClassNamed mapper (asked settings schema .classes) e.1 e.2 ∧
        List.Forall₂ (MemberImported mapper) e.1.fields e.2.members := by
  obtain ⟨mapper, es, hmapper, hprints, ⟨s₁, t₁, head, hs₁, hdeclared, hhead, htext⟩, hreq, hnamed⟩ :=
    classes_of_classPass h
  have hemitted : ∀ e ∈ es, Emission e.1 e.2 := by
    have := forall₂_of_yields_mapM (f := ClassDecl.ofModel (commented settings) mapper) (R := Emission)
      (fun _ _ _ _ hc => emission_of_yields hc) _ hdeclared
    rwa [List.forall₂_map_left_iff, List.forall₂_map_right_iff, List.forall₂_same] at this
  have hstart : Numbered rules [] s₁.names := hs₁ ▸ numbered_nil
  have himported := (mapM_of_numbered (modelRequests mapper)
    (fun _ m (c : ClassDecl) => List.Forall₂ (MemberImported mapper) m.fields c.members)
    ofModel_imported (fun _ _ _ _ _ h => h) _ hdeclared hstart).2
  have himported : ∀ e ∈ es, List.Forall₂ (MemberImported mapper) e.1.fields e.2.members := by
    intro e he
    rw [List.forall₂_map_left_iff, List.forall₂_map_right_iff, List.forall₂_same] at himported
    exact himported e he
  rw [drain_imports himported, headImports_eq] at hhead
  obtain ⟨hhead, -⟩ := yields_render.mp hhead
  rw [render_packageTemplate] at hhead
  obtain rfl := Except.ok.inj hhead
  exact ⟨mapper, es, hmapper, hprints, htext, hreq, fun e he => ⟨hemitted e he, (hnamed e he).2, himported e he⟩⟩

/-- The import list of a file of classes has the qualified names of the fields that the base list lacks, each once where
    a field first uses it, then an empty line if there are any, then the base list. So each qualified type of a member
    is imported exactly once and the member is written by its simple name, no line but an empty one comes twice, and
    what the base list lacks is there for a member. -/
theorem import_list_of_classPass {settings : Settings} {schema : Schema} {s t : Session} {text : String}
    (h : Yields (classPass settings schema) s text t) :
    ∃ mapper es imports, newMapper settings schema = .ok mapper ∧ (Output.classes es).Prints settings schema text ∧
      text = fileOf (headText settings.packageName imports) (es.map (·.2.source)) ∧
      imports = importList mapper (es.map (·.1)) ∧
      (∀ e ∈ es, ∀ x ∈ e.2.members, ∀ q, mapper.qualifiedName? x.field = some q →
        imports.count q = 1 ∧ x.type = written x.field (simpleName q)) ∧
      (∀ name, name ≠ "" → imports.count name ≤ 1) ∧
      ∀ name ∈ imports, name ∈ classImports ∨
        ∃ e ∈ es, ∃ x ∈ e.2.members, mapper.qualifiedName? x.field = some name := by
  obtain ⟨mapper, es, hmapper, hprints, htext, -, hes⟩ := imports_of_classPass h
  have himported := fun e he => (hes e he).2.2
  refine ⟨mapper, es, _, hmapper, hprints, htext, rfl, fun e he x hx q hq => ⟨?_, ?_⟩,
    fun name hname => count_importList_le hname, fun name hmem => ?_⟩
  · have hblank := ne_blank_of_qualifiedName? hq
    have hused := (mem_qualifiedNames himported).mpr ⟨e, he, x, hx, hq⟩
    have hmem : q ∈ importList mapper (es.map (·.1)) := (mem_importList hblank).mpr (Or.inl hused)
    exact Nat.le_antisymm (count_importList_le hblank) (List.count_pos_iff.mpr hmem)
  · obtain ⟨f, -, rfl, -, hwritten⟩ := (partner_of_forall₂ (himported e he)).2 x hx
    exact hwritten q hq
  · by_cases hname : name = ""
    · exact Or.inl (hname ▸ by decide)
    · rw [mem_importList hname, mem_qualifiedNames himported] at hmem
      exact hmem.symm

/-- Models with a qualified type from the table, shared by two of them, one of their own in a list, and one that the
    base list has. -/
def journal : Schema :=
  { models := [
      (.str "Entry", { name := .str "Entry", fields := [
        { name := .str "id", type := .str "ID" }, { name := .str "writtenOn", type := .str "AWSDate" },
        { name := .str "tags", type := .str "org.notes.Tag", list := true }] }),
      (.str "Volume", { name := .str "Volume", fields := [
        { name := .str "id", type := .str "ID" }, { name := .str "opened", type := .str "AWSDateTime" },
        { name := .str "opens", type := .str "AWSTime" }, { name := .str "key", type := .str "java.util.UUID" },
        { name := .str "entries", type := .str "Entry", list := true }] })] }

theorem import_list_of_journal :
    ∃ text t es, Yields (classPass {} journal) {} text t ∧ (Output.classes es).Prints {} journal text ∧
      text = fileOf (headText (.str "com.amplifyframework.datastore.generated.model")
        (["java.util.Date", "org.notes.Tag", "java.sql.Time", ""] ++ classImports)) (es.map (·.2.source)) := by
  obtain ⟨text, t, h⟩ := exists_yields_of_succeeds
    (show succeeds (classPass {} journal) {} = true by decide +kernel)
  obtain ⟨mapper, es, imports, hmapper, hprints, htext, himports, -⟩ := import_list_of_classPass h
  obtain rfl : { schema := journal, scalars := defaultScalars } = mapper := Except.ok.inj hmapper
  obtain ⟨models, _, hmodels, hfst, -⟩ := id hprints
  obtain rfl : journal.models = models := Except.ok.inj hmodels
  rw [hfst] at himports
  refine ⟨text, t, es, h, hprints, htext.trans ?_⟩
  rw [himports, show importList { schema := journal, scalars := defaultScalars } (Entries.values journal.models) =
    ["java.util.Date", "org.notes.Tag", "java.sql.Time", ""] ++ classImports by decide +kernel]

end SchemaForge.Java
