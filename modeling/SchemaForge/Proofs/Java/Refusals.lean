import SchemaForge.Proofs.Generation.Outcomes
import SchemaForge.Proofs.Java.ClassPass
import SchemaForge.Proofs.Java.Construction

/-
Which models have no class. Where names and types are texts and limits are finite (`Model.Plain`), nothing on the way to
a class can fail but its three checks: for the identity, for the keys of the chain, and for the member names. So
whatever schema is around the model and whatever was named before, a class is refused by the first check that its
fields fail (`Model.refusal?`, `outcome_classText`).

The checks compare names of different styles, and a suffix is in the one and not in the other. Fields that share a step
interface share their member too (`javaName_eq_of_stepInterface_eq`), so it is the same models that are refused,
whichever check comes first.
-/

namespace SchemaForge

open Generation

/-- A limit of a connection is a finite number, if it is a number at all. -/
def Directive.FiniteLimit (d : Directive) : Prop :=
  d.name = .str "connection" → ∀ x, d.get? "limit" = some (.float x) → x.isFinite = true

structure Field.Plain (f : Field) : Prop where
  name : ∃ n, f.name = .str n
  type : ∃ n, f.type = .str n
  directiveNames : ∀ d ∈ f.directives, ∃ n, d.name = .str n
  limits : ∀ d ∈ f.directives, d.FiniteLimit

structure Model.Plain (m : Model) : Prop where
  name : ∃ n, m.name = .str n
  directiveNames : ∀ d ∈ m.directives, ∃ n, d.name = .str n
  fields : ∀ f ∈ m.fields, f.Plain

namespace Model

variable (m : Model)

def HasIdentity : Prop := ∃ f ∈ m.fields, f.name = .str "id"

def SharesMember : Prop := ¬ (m.fields.map Field.javaName).Nodup

def SharesStep : Prop := ¬ ((m.fields.filter Field.chained).map Field.stepInterface).Nodup

/-- A step has the interface of the terminal one. -/
def TakesBuildStep : Prop := ∃ f ∈ m.fields, f.chained = true ∧ f.stepInterface = Java.buildInterface

/-- The first check that a model fails, if it fails one. -/
def refusal? : Option Failure :=
  if m.identity?.isNone then some (.noIdentity m.name)
  else
    match Builder.checkKeys [Java.buildInterface] [] ((m.fields.filter Field.chained).map Field.stepInterface) with
    | .error e => some (.chain e)
    | .ok _ => (Java.repeated? (m.fields.map Field.javaName)).map (.memberClash m.name)

end Model

namespace Java

open Generation.Pass

/-! ## What cannot fail -/

/-- A table with a text for every scalar. -/
def TypeMapper.NativeTexts (mapper : TypeMapper) : Prop := ∀ e ∈ mapper.scalars, ∃ n, e.2 = .str n

/-- The overrides of a table: none, or texts by name. -/
def TextOverrides (overrides : Json) : Prop :=
  overrides = .null ∨ ∃ ms, overrides = .obj ms ∧ ∀ e ∈ ms, ∃ n, e.2 = .str n

theorem textOverrides_singleton (scalar native : String) : TextOverrides (.obj [(scalar, .str native)]) := by
  refine Or.inr ⟨_, rfl, fun e he => ?_⟩
  rw [List.mem_singleton.mp he]
  exact ⟨_, rfl⟩

theorem nativeTexts_of_scalarsWith {mapper : TypeMapper} {overrides : Json} (hoverrides : TextOverrides overrides)
    (h : scalarsWith overrides = .ok mapper.scalars) : mapper.NativeTexts := by
  have hdefault : ∀ e ∈ defaultScalars, ∃ n, e.2 = .str n := by
    intro e he
    obtain ⟨entry, -, rfl⟩ := List.mem_map.mp he
    exact ⟨_, rfl⟩
  intro e he
  rcases hoverrides with rfl | ⟨ms, rfl, htexts⟩
  · exact hdefault e (Except.ok.inj h ▸ he)
  · unfold scalarsWith at h
    split at h
    · rw [← Except.ok.inj h] at he
      rcases Entries.mem_or_exists_of_mem_putAll he with he | ⟨_, hoverride, hvalue, -⟩
      · exact hdefault e he
      · obtain ⟨entry, hentry, rfl⟩ := List.mem_map.mp hoverride
        rw [hvalue]
        exact htexts entry hentry
    · exact hdefault e (Except.ok.inj h ▸ he)

theorem ofNative_str (n : String) : ∃ t, ofNative (.str n) = .ok t := by
  have hdot : (Json.str n).hasText "." = .ok (Text.occursIn ['.'] n.toList) := rfl
  unfold ofNative
  rw [hdot]
  cases Text.occursIn ['.'] n.toList with
  | false => exact ⟨_, rfl⟩
  | true => cases hcut : Text.cutLast? '.' n.toList <;> simp only [hcut] <;> exact ⟨_, rfl⟩

theorem delivers_className {v : Json} (hv : ∃ n, v = .str n) : Delivers (className v) fun _ => True := by
  obtain ⟨n, rfl⟩ := hv
  exact delivers_assignName _ _ _ _

theorem delivers_toKey {v : Json} (hv : ∃ n, v = .str n) : Delivers (ofFault v.toKey) (· = v) := by
  obtain ⟨n, rfl⟩ := hv
  exact delivers_ofFault rfl rfl

theorem delivers_resolve {mapper : TypeMapper} (hnative : mapper.NativeTexts) {f : Field}
    (htype : ∃ n, f.type = .str n) : Delivers (mapper.resolve f) fun _ => True := by
  have hnatives : Delivers (mapper.native f.type) fun v => ∃ n, v = .str n := by
    unfold TypeMapper.native
    split
    · rename_i native hscalar
      obtain ⟨_, -, hmem⟩ := Entries.exists_mem_of_get? hscalar
      exact delivers_pure (hnative _ hmem)
    · split
      · exact delivers_bind (delivers_className htype) fun n _ => delivers_pure ⟨n, rfl⟩
      · exact delivers_pure htype
  refine delivers_bind (delivers_toKey htype) fun key hkey => ?_
  rw [hkey]
  refine delivers_bind hnatives fun native htext => ?_
  obtain ⟨n, rfl⟩ := htext
  obtain ⟨t, ht⟩ := ofNative_str n
  exact delivers_bind (delivers_ofFault (P := fun _ => True) ht trivial) fun _ _ => delivers_pure trivial

theorem exists_limitOf {v : Option Json} (h : ∀ x, v = some (.float x) → x.isFinite = true) :
    ∃ n, Connection.limitOf v = .ok n := by
  unfold Connection.limitOf
  split
  · exact ⟨_, rfl⟩
  · rename_i x
    split
    · exact ⟨_, rfl⟩
    · have hfinite := h x rfl
      simp only [Binary64.truncate?, hfinite]
      exact ⟨_, rfl⟩
  · exact ⟨_, rfl⟩

theorem exists_connectionText {d : Directive} (h : ∀ x, d.get? "limit" = some (.float x) → x.isFinite = true) :
    ∃ text, connectionText d = .ok text := by
  obtain ⟨n, hn⟩ := exists_limitOf h
  unfold connectionText Connection.ofDirective
  rw [hn]
  simp only [bind, Except.bind, pure, Except.pure]
  split <;> exact ⟨_, rfl⟩

theorem delivers_ignored (d : Directive) (owner : String) (name : Json) :
    Delivers (ignored d owner name) fun _ => True :=
  delivers_bind (delivers_note _ _) fun _ _ => delivers_pure trivial

theorem delivers_fieldAnnotations {f : Field} (hf : f.Plain) : Delivers (fieldAnnotations f) fun _ => True := by
  refine delivers_bind (delivers_mapM (Q := fun _ => True) fun d hd => ?_) fun _ _ => delivers_pure trivial
  refine delivers_bind (delivers_toKey (hf.directiveNames d hd)) fun key hkey => ?_
  rw [hkey]
  split
  · rename_i hconnection
    obtain ⟨text, htext⟩ := exists_connectionText (hf.limits d hd hconnection)
    exact delivers_ofFault htext trivial
  · exact delivers_ignored _ _ _

theorem delivers_modelAnnotations {m : Model} (hm : m.Plain) : Delivers (modelAnnotations m) fun _ => True := by
  refine delivers_bind (delivers_mapM (Q := fun _ => True) fun d hd => ?_) fun _ _ => delivers_pure trivial
  refine delivers_bind (delivers_toKey (hm.directiveNames d hd)) fun key hkey => ?_
  rw [hkey]
  split
  · exact delivers_pure trivial
  · exact delivers_pure trivial
  · exact delivers_ignored _ _ _

theorem delivers_member {mapper : TypeMapper} (hnative : mapper.NativeTexts) {f : Field} (hf : f.Plain) :
    Delivers (member mapper f) fun _ => True := by
  obtain ⟨n, hn⟩ := hf.name
  have hnames : Delivers (mapper.fieldNames f) fun _ => True := by
    unfold TypeMapper.fieldNames
    rw [hn]
    refine delivers_bind (delivers_ofFault (P := fun _ => True) rfl trivial) fun _ _ => ?_
    refine delivers_bind (delivers_ofFault (P := fun _ => True) rfl trivial) fun _ _ => ?_
    refine delivers_bind (delivers_ofFault (P := fun _ => True) rfl trivial) fun _ _ => ?_
    exact delivers_bind (delivers_resolve hnative hf.type) fun _ _ => delivers_pure trivial
  exact delivers_bind hnames fun _ _ => delivers_bind (delivers_fieldAnnotations hf) fun _ _ => delivers_pure trivial

/-! ## The checks -/

/-- What the members are checked for can be said of the fields. -/
theorem checks_of_members {mapper : TypeMapper} {fs : List Field} {s t : Session} {xs : List Member}
    (h : Yields (fs.mapM (member mapper)) s xs t) :
    (Builder.chained Member.field xs).map Member.stepName = (fs.filter Field.chained).map Field.stepInterface ∧
      xs.map (·.names.member) = fs.map Field.javaName ∧
      (Builder.Plan.ofSteps Member.field xs (Builder.contracts (Builder.chained Member.field xs))).identity.map
        Member.field = fs.find? Field.isIdentity := by
  obtain ⟨rfl, hnames⟩ := yields_members h
  refine ⟨?_, ?_, ?_⟩
  · rw [List.filter_map, List.map_map]
    rfl
  · rw [List.map_map]
    exact List.map_congr_left fun x hx => (hnames x hx).1
  · rw [List.find?_map]
    rfl

theorem outcome_ofModel {mapper : TypeMapper} (hnative : mapper.NativeTexts) {m : Model} (hm : m.Plain)
    (comments : Bool) (s : Session) :
    match m.refusal? with
    | some e => outcome (ClassDecl.ofModel comments mapper m) s = .error e
    | none => ∃ c, outcome (ClassDecl.ofModel comments mapper m) s = .ok c := by
  unfold Model.refusal?
  simp only [ClassDecl.ofModel]
  cases hid : m.identity? with
  | none => exact outcome_bind_error rfl
  | some id =>
    obtain ⟨_, t₁, hnote, -⟩ := delivers_note .debug
      ("Emitting class " ++ m.name.display ++ " (" ++ toString m.fields.length ++ " fields)") s
    obtain ⟨name, t₂, hname, -⟩ := delivers_className hm.name t₁
    obtain ⟨members, t₃, hmembers, -⟩ := delivers_mapM (fun f hf => delivers_member hnative (hm.fields f hf)) t₂
    obtain ⟨hkeys, hjava, hidentity⟩ := checks_of_members hmembers
    simp only [Option.isNone_some, Bool.false_eq_true, if_false]
    rw [outcome_bind hnote, outcome_bind hname, outcome_bind hmembers, Builder.planBuilder_eq, hkeys]
    cases Builder.checkKeys [buildInterface] [] ((m.fields.filter Field.chained).map Field.stepInterface) with
    | error e => exact outcome_bind_error rfl
    | ok =>
      simp only [Except.map]
      rw [outcome_bind (yields_pure.mpr ⟨rfl, rfl⟩), clash?_eq_repeated?, hjava]
      cases repeated? (m.fields.map Field.javaName) with
      | some clash => exact outcome_bind_error rfl
      | none =>
        obtain ⟨annotations, t₄, hannotations, -⟩ := delivers_modelAnnotations hm t₃
        obtain ⟨n, hn⟩ := hm.name
        have hinstance : Yields (ofFault (memberName m.name)) t₄ (rules.convert n .camel conflictSuffix) t₄ :=
          yields_ofFault.mpr ⟨by rw [hn]; rfl, rfl⟩
        simp only [Option.map_none]
        rw [outcome_bind hannotations, outcome_bind hinstance]
        rw [show m.fields.find? Field.isIdentity = some id from hid] at hidentity
        obtain ⟨identity, hidentity, -⟩ := Option.map_eq_some_iff.mp hidentity
        rw [hidentity]
        exact ⟨_, rfl⟩

/-- Whatever was named before and whatever the schema is, a model has a class or is refused for the first check that it
    fails. -/
theorem outcome_classText {mapper : TypeMapper} (hnative : mapper.NativeTexts) {m : Model} (hm : m.Plain)
    (settings : Settings) (s : Session) :
    match m.refusal? with
    | some e => outcome (classText settings mapper m) s = .error e
    | none => ∃ out, outcome (classText settings mapper m) s = .ok out := by
  have hdeclared := outcome_ofModel hnative hm (commented settings) s
  cases hrefusal : m.refusal? with
  | some e =>
    rw [hrefusal] at hdeclared
    exact outcome_bind_error hdeclared
  | none =>
    rw [hrefusal] at hdeclared
    obtain ⟨c, hc⟩ := hdeclared
    obtain ⟨t, hc⟩ := exists_yields_of_outcome hc
    refine ⟨(c.source, c.imports), ?_⟩
    exact congrArg Prod.fst (yields_classText.mpr ⟨c, hc, rfl⟩)

/-! ## What the checks say -/

theorem identity?_isNone_iff {m : Model} : m.identity?.isNone = true ↔ ¬ m.HasIdentity := by
  simp only [Model.identity?, Option.isNone_iff_eq_none, List.find?_eq_none, Field.isIdentity, Json.beq_str_iff,
    Model.HasIdentity, not_exists, not_and]

theorem checkKeys_stepInterfaces {m : Model} :
    Builder.checkKeys [buildInterface] [] ((m.fields.filter Field.chained).map Field.stepInterface) = .ok () ↔
      ¬ m.TakesBuildStep ∧ ¬ m.SharesStep := by
  rw [Builder.checkKeys_eq_ok_iff, Model.SharesStep, Classical.not_not]
  refine and_congr_left fun _ => ⟨fun hfree htaken => ?_, fun hfree k hk => ⟨fun hbuild => ?_, List.not_mem_nil⟩⟩
  · obtain ⟨f, hf, hchained, hbuild⟩ := htaken
    have hk := List.mem_map_of_mem (f := Field.stepInterface) (List.mem_filter.mpr ⟨hf, hchained⟩)
    exact (hfree _ hk).1 (List.mem_singleton.mpr hbuild)
  · obtain ⟨f, hf, rfl⟩ := List.mem_map.mp hk
    obtain ⟨hf, hchained⟩ := List.mem_filter.mp hf
    exact hfree ⟨f, hf, hchained, List.mem_singleton.mp hbuild⟩

/-- Fields that share a step interface share their member. -/
theorem javaName_eq_of_stepInterface_eq {f g : Field} (h : f.stepInterface = g.stepInterface) :
    f.javaName = g.javaName := by
  rw [javaName_eq_member, javaName_eq_member, DerivedNames.member_eq_iff, ← DerivedNames.interface_eq_iff]
  exact h

theorem sharesMember_of_sharesStep {m : Model} (h : m.SharesStep) : m.SharesMember := by
  refine fun hmembers => h ?_
  have hsublist : ((m.fields.filter Field.chained).map Field.javaName).Sublist (m.fields.map Field.javaName) :=
    List.filter_sublist.map Field.javaName
  refine List.pairwise_map.mpr ((List.pairwise_map.mp (hmembers.sublist hsublist)).imp fun hne heq => hne ?_)
  exact javaName_eq_of_stepInterface_eq heq

/-- What each check has found, and that no other failure is a refusal. -/
theorem refusal?_eq (m : Model) :
    match m.refusal? with
    | none => m.HasIdentity ∧ ¬ m.SharesMember ∧ ¬ m.TakesBuildStep
    | some (.noIdentity _) => ¬ m.HasIdentity
    | some (.chain _) => m.HasIdentity ∧ (m.SharesStep ∨ m.TakesBuildStep)
    | some (.memberClash _ _) => m.HasIdentity ∧ m.SharesMember ∧ ¬ (m.SharesStep ∨ m.TakesBuildStep)
    | some _ => False := by
  unfold Model.refusal?
  by_cases hid : m.HasIdentity
  · rw [if_neg fun hnone => identity?_isNone_iff.mp hnone hid]
    have hkeys := checkKeys_stepInterfaces (m := m)
    cases hchecked : Builder.checkKeys [buildInterface] [] ((m.fields.filter Field.chained).map Field.stepInterface) with
    | error e =>
      rw [hchecked] at hkeys
      refine ⟨hid, Classical.byContradiction fun hfree => ?_⟩
      rw [not_or] at hfree
      cases hkeys.mpr ⟨hfree.2, hfree.1⟩
    | ok =>
      rw [hchecked] at hkeys
      obtain ⟨hbuild, hstep⟩ := hkeys.mp rfl
      have hmembers : repeated? (m.fields.map Field.javaName) = none ↔ (m.fields.map Field.javaName).Nodup :=
        repeated?_eq_none_iff
      cases hclash : repeated? (m.fields.map Field.javaName) with
      | none => exact ⟨hid, fun hshares => hshares (hmembers.mp hclash), hbuild⟩
      | some clash =>
        refine ⟨hid, fun hnodup => ?_, not_or.mpr ⟨hstep, hbuild⟩⟩
        rw [hmembers.mpr hnodup] at hclash
        cases hclash
  · rw [if_pos (identity?_isNone_iff.mpr hid)]
    exact hid

theorem of_refusal?_eq_some {m : Model} {e : Failure} (h : m.refusal? = some e) :
    (¬ m.HasIdentity ∨ m.SharesMember ∨ m.TakesBuildStep) ∧
      (e.className = "GeneratorError" ∨ e.className = "StepPlanError") ∧
      (e.className = "StepPlanError" ↔ m.HasIdentity ∧ (m.SharesStep ∨ m.TakesBuildStep)) := by
  have hfound := refusal?_eq m
  rw [h] at hfound
  have hplain : ¬ "GeneratorError" = "StepPlanError" := by decide
  cases e with
  | noIdentity => exact ⟨Or.inl hfound, Or.inl rfl, iff_of_false hplain fun hid => hfound hid.1⟩
  | chain =>
    exact ⟨Or.inr (hfound.2.imp_left sharesMember_of_sharesStep), Or.inr rfl, iff_of_true rfl hfound⟩
  | memberClash =>
    obtain ⟨-, hshares, hfree⟩ := hfound
    exact ⟨Or.inr (Or.inl hshares), Or.inl rfl, iff_of_false hplain fun hplan => hfree hplan.2⟩
  | _ => exact hfound.elim

/-- Where names and types are texts, overrides are texts and limits are finite, a class is refused exactly when the
    model has no identity, two of its fields share a member name, or a step takes the interface of the terminal one.
    The generator refuses it itself, and its plan is what is refused exactly when there is an identity and two steps
    share an interface or one takes the terminal step's. -/
theorem class_refused_iff {settings : Settings} {mapper : TypeMapper} {overrides : Json} {m : Model} (hm : m.Plain)
    (hoverrides : TextOverrides overrides) (hscalars : scalarsWith overrides = .ok mapper.scalars) (s : Session) :
    ((∃ e, outcome (classText settings mapper m) s = .error e) ↔
      ¬ m.HasIdentity ∨ m.SharesMember ∨ m.TakesBuildStep) ∧
    ∀ e, outcome (classText settings mapper m) s = .error e →
      (e.className = "GeneratorError" ∨ e.className = "StepPlanError") ∧
      (e.className = "StepPlanError" ↔ m.HasIdentity ∧ (m.SharesStep ∨ m.TakesBuildStep)) := by
  have houtcome := outcome_classText (nativeTexts_of_scalarsWith hoverrides hscalars) hm settings s
  cases hrefusal : m.refusal? with
  | none =>
    rw [hrefusal] at houtcome
    obtain ⟨out, hout⟩ := houtcome
    have hpassed := refusal?_eq m
    rw [hrefusal] at hpassed
    obtain ⟨hid, hmembers, hbuild⟩ := hpassed
    rw [hout]
    refine ⟨iff_of_false (fun h => ?_) fun h => ?_, fun e he => ?_⟩
    · obtain ⟨e, he⟩ := h
      cases he
    · rcases h with hnone | hshares | htaken
      · exact hnone hid
      · exact hmembers hshares
      · exact hbuild htaken
    · cases he
  | some e =>
    rw [hrefusal] at houtcome
    obtain ⟨hfails, hkind⟩ := of_refusal?_eq_some hrefusal
    rw [houtcome]
    refine ⟨iff_of_true ⟨e, rfl⟩ hfails, fun e' he => ?_⟩
    cases he
    exact hkind

/-- All member names are different, and one step would be the terminal one. -/
def ticket : Model :=
  { name := .str "Ticket"
    fields := [
      { name := .str "id", type := .str "ID", nullable := false },
      { name := .str "opened_on", type := .str "AWSDate", nullable := false },
      { name := .str "-build_", type := .str "Release", nullable := false,
        directives := [
          { name := .str "connection", arguments := [("limit", .float ⟨0x4004000000000000⟩), ("name", .str "build")] },
          { name := .str "searchable" }] }] }

def ticketMapper : TypeMapper :=
  { schema := {}, scalars := Entries.put (.str "AWSDate") (.str "java.time.LocalDate") defaultScalars }

theorem ticket_is_refused :
    ticket.Plain ∧ TextOverrides (.obj [("AWSDate", .str "java.time.LocalDate")]) ∧
      scalarsWith (.obj [("AWSDate", .str "java.time.LocalDate")]) = .ok ticketMapper.scalars ∧
      ¬ ticket.SharesMember ∧
      ∃ e, outcome (classText {} ticketMapper ticket) {} = .error e ∧ e.className = "StepPlanError" := by
  have hplain : ticket.Plain := by
    refine ⟨⟨_, rfl⟩, nofun, fun f hf => ?_⟩
    simp only [ticket, List.mem_cons, List.not_mem_nil, or_false] at hf
    rcases hf with rfl | rfl | rfl
    · exact ⟨⟨_, rfl⟩, ⟨_, rfl⟩, nofun, nofun⟩
    · exact ⟨⟨_, rfl⟩, ⟨_, rfl⟩, nofun, nofun⟩
    · refine ⟨⟨_, rfl⟩, ⟨_, rfl⟩, fun d hd => ?_, fun d hd hname x hlimit => ?_⟩
      · simp only [List.mem_cons, List.not_mem_nil, or_false] at hd
        rcases hd with rfl | rfl <;> exact ⟨_, rfl⟩
      · simp only [List.mem_cons, List.not_mem_nil, or_false] at hd
        rcases hd with rfl | rfl
        · obtain rfl : (⟨0x4004000000000000⟩ : Binary64) = x := by
            simpa [Directive.get?, Entries.get?] using hlimit
          decide
        · cases hlimit
  have hoverrides := textOverrides_singleton "AWSDate" "java.time.LocalDate"
  have hmembers : ¬ ticket.SharesMember := by
    refine fun hshares => hshares ?_
    have hnames : ticket.fields.map Field.javaName = ["id", "openedOn", "build"] := by decide +kernel
    rw [hnames]
    decide
  have hid : ticket.HasIdentity := ⟨_, List.mem_cons_self .., rfl⟩
  have hbuild : ticket.TakesBuildStep := by
    refine ⟨_, List.mem_cons_of_mem _ (List.mem_cons_of_mem _ (List.mem_cons_self ..)), rfl, ?_⟩
    decide +kernel
  obtain ⟨hrefused, hkind⟩ := @class_refused_iff {} ticketMapper _ ticket hplain hoverrides rfl {}
  obtain ⟨e, he⟩ := hrefused.mpr (Or.inr (Or.inr hbuild))
  exact ⟨hplain, hoverrides, rfl, hmembers, e, he, (hkind e he).2.mpr ⟨hid, Or.inr hbuild⟩⟩

end Java

end SchemaForge
