import LfsCloud.ServerConfig.RepositoryMappings

/-!
# References to the environment

A value of a configuration is a template: texts with references to variables between them. Reading
a configuration puts the value of each variable in its place once, and asks for no other variable.
-/

namespace LfsCloud.ServerConfig

/-- What opens a reference. -/
def opening : List Char := ['$', openBrace]

/-- What may name a variable. -/
def VariableName (name : List Char) : Prop := name ≠ [] ∧ name.all isVariableChar = true

instance (name : List Char) : Decidable (VariableName name) := inferInstanceAs (Decidable (_ ∧ _))

/-- A reference, with the text in front of it. -/
structure Reference where
  before : List Char
  name : List Char
  plain : ¬opening <:+: before
  named : VariableName name

def Reference.text (reference : Reference) : List Char :=
  reference.before ++ (opening ++ (reference.name ++ [closeBrace]))

/-- References one after the other. -/
def referencesText (references : List Reference) : List Char := references.flatMap Reference.text

/-- A value that is taken apart at its references. -/
structure Template where
  references : List Reference
  last : List Char
  plain : ¬opening <:+: last

def Template.text (template : Template) : List Char :=
  referencesText template.references ++ template.last

section

variable (debug : String → String) (env : String → Option String)

/-- The texts of references with the variables put in their place. -/
def fillReferences : List Reference → Option (List Char)
  | [] => some []
  | reference :: references => do
    let resolved ← env (String.ofList reference.name)
    let output ← fillReferences references
    pure (reference.before ++ resolved.toList ++ output)

def Template.fill (template : Template) : Option (List Char) :=
  (fillReferences env template.references).map (· ++ template.last)

/-- What is wrong with a reference, by the text behind its opening. -/
inductive BadReference (path : String) : List Char → ServerError → Prop
  | unterminated {tail : List Char} (hclose : closeBrace ∉ tail) :
    BadReference path tail
      (invalidConfigError path "contains an unterminated environment reference")
  | invalid {name rest : List Char} (hclose : closeBrace ∉ name) (hname : ¬VariableName name) :
    BadReference path (name ++ closeBrace :: rest) (invalidConfigError path
      ("contains invalid environment variable reference " ++ debug (String.ofList name)))
  | unset {name rest : List Char} (hname : VariableName name)
      (henv : env (String.ofList name) = none) :
    BadReference path (name ++ closeBrace :: rest) (invalidConfigError path
      ("references unset environment variable " ++ String.ofList name))

/-- A value whose first bad reference stands behind references that are all set. -/
structure Broken (path : String) (value : List Char) (error : ServerError)
    (references : List Reference) (before tail : List Char) : Prop where
  text : value = referencesText references ++ (before ++ (opening ++ tail))
  set : (fillReferences env references).isSome = true
  plain : ¬opening <:+: before
  bad : BadReference debug env path tail error

end

/-- A variable that a value names. -/
def Mentions (value : List Char) (name : String) : Prop :=
  opening ++ (name.toList ++ [closeBrace]) <:+: value

/-- A required value is the filling of a template, and neither of the two is blank. -/
def Resolves (env : String → Option String) (written : Option String) (resolved : String) : Prop :=
  ∃ template : Template, written = some (String.ofList template.text) ∧
    template.fill env = some resolved.toList ∧
    Text.trim template.text ≠ [] ∧ Text.trim resolved.toList ≠ []

/-- A host that may stand in a route. -/
def RouteHost (host : String) : Prop :=
  host.toList = Text.trim host.toList ∧ ∀ label ∈ host.toList.splitOn '.', RouteLabel label

/-- An owner or a name that may stand in a route. -/
def RouteComponent (component : String) : Prop :=
  component.toList = Text.trim component.toList ∧ component ≠ "." ∧ component ≠ ".." ∧
    component.toList.all Url.isPlainChar = true

/-- A mapping that is read from what is written of it. -/
structure RepositoryMapping.ReadFrom (env : String → Option String) (raw : RawRepositoryMapping)
    (repository : RepositoryMapping) : Prop where
  id : Resolves env raw.id repository.id
  repoProvider : Resolves env raw.repoProvider repository.repoProvider
  host : Resolves env raw.host repository.host
  owner : Resolves env raw.owner repository.owner
  name : Resolves env raw.name repository.name
  providerRepositoryId : Resolves env raw.providerRepositoryId repository.providerRepositoryId
  storageProvider : Resolves env raw.storageProvider repository.storageProvider
  routeHost : RouteHost repository.host
  routeOwner : RouteComponent repository.owner
  routeName : RouteComponent repository.name
  suffix : ¬".git".toList <:+ repository.name.toList

/-- The values of a mapping as they are written. -/
def RawRepositoryMapping.values (raw : RawRepositoryMapping) : List String :=
  [raw.id, raw.repoProvider, raw.host, raw.owner, raw.name, raw.providerRepositoryId,
    raw.storageProvider].filterMap fun value => value

variable {debug : String → String} {env : String → Option String} {path : String}
  {value text before rest : List Char} {references : List Reference}

/-! ## The first opening and the first close -/

theorem opening_infix_cons {c : Char} :
    opening <:+: c :: text ↔ (c = '$' ∧ text.head? = some openBrace) ∨ opening <:+: text := by
  rw [List.infix_cons_iff]
  refine or_congr_left ?_
  cases text with
  | nil => simp [opening, List.cons_prefix_cons]
  | cons d text => simp [opening, List.cons_prefix_cons, eq_comm]

theorem splitReference_eq_none : splitReference text = none ↔ ¬opening <:+: text := by
  induction text with
  | nil => simp [splitReference, opening]
  | cons c text ih =>
    rw [opening_infix_cons, not_or, ← ih]
    cases text with
    | nil => simp [splitReference]
    | cons d text =>
      rw [splitReference]
      split_ifs with hopen
      · simp [hopen]
      · simpa using fun _ hc hd => hopen ⟨hc, hd⟩

theorem splitReference_append (hplain : ¬opening <:+: before) (rest : List Char) :
    splitReference (before ++ (opening ++ rest)) = some (before, rest) := by
  induction before with
  | nil => rfl
  | cons c before ih =>
    rw [opening_infix_cons, not_or] at hplain
    have hrest := ih hplain.2
    cases before with
    | nil =>
      have hne : ¬('$' = openBrace) := by decide
      change (if c = '$' ∧ '$' = openBrace then _ else _) = _
      rw [if_neg fun h => hne h.2]
      exact congrArg _ hrest
    | cons d before =>
      change (if c = '$' ∧ d = openBrace then _ else _) = _
      rw [if_neg fun h => hplain.1 ⟨h.1, congrArg some h.2⟩]
      exact (congrArg _ hrest).trans rfl

theorem splitReference_eq_some {after : List Char}
    (h : splitReference text = some (before, after)) :
    text = before ++ (opening ++ after) ∧ ¬opening <:+: before := by
  induction text generalizing before after with
  | nil => cases h
  | cons c text ih =>
    cases text with
    | nil => cases h
    | cons d text =>
      rw [splitReference] at h
      split_ifs at h with hopen
      · obtain ⟨rfl, rfl⟩ := Prod.mk.inj (Option.some.inj h)
        obtain ⟨rfl, rfl⟩ := hopen
        exact ⟨rfl, by simp [opening]⟩
      · obtain ⟨⟨front, back⟩, hfound, heq⟩ := Option.map_eq_some_iff.mp h
        obtain ⟨rfl, rfl⟩ := Prod.mk.inj heq
        obtain ⟨htext, hplain⟩ := ih hfound
        refine ⟨congrArg (c :: ·) htext, ?_⟩
        rw [opening_infix_cons, not_or]
        refine ⟨?_, hplain⟩
        rintro ⟨rfl, hhead⟩
        cases front with
        | nil => exact absurd hhead (by simp)
        | cons e front =>
          have hd : d = e := (List.cons.inj htext).1
          exact hopen ⟨rfl, hd.trans (Option.some.inj hhead)⟩

theorem VariableName.close_notMem {name : List Char} (h : VariableName name) :
    closeBrace ∉ name :=
  fun hmem => absurd (List.all_eq_true.mp h.2 _ hmem) (by decide)

theorem notMem_of_splitOnce {sep : Char} (h : Text.splitOnce sep text = none) : sep ∉ text := by
  intro hmem
  obtain ⟨front, back, rfl, hfront⟩ := List.eq_append_cons_of_mem hmem
  rw [Text.splitOnce_append hfront] at h
  cases h

/-! ## Reading a value, reference by reference -/

theorem interpolateEnv_plain (hplain : ¬opening <:+: value) :
    interpolateEnv debug env path value = .ok value :=
  interpolateEnv_of_split (splitReference_eq_none.mpr hplain)

theorem interpolateEnv_opening (hplain : ¬opening <:+: before) {tail : List Char} :
    interpolateEnv debug env path (before ++ (opening ++ tail)) =
      match Text.splitOnce closeBrace tail with
      | none => .error (invalidConfigError path "contains an unterminated environment reference")
      | some (name, rest) =>
        if name = [] ∨ name.all isVariableChar = false then
          .error (invalidConfigError path
            ("contains invalid environment variable reference " ++ debug (String.ofList name)))
        else match env (String.ofList name) with
          | none => .error (invalidConfigError path
              ("references unset environment variable " ++ String.ofList name))
          | some resolved =>
            (interpolateEnv debug env path rest).map (before ++ resolved.toList ++ ·) := by
  have hsome := splitReference_append hplain tail
  conv_lhs => rw [interpolateEnv]
  split
  next hnone =>
    rw [hsome] at hnone
    cases hnone
  next hfound =>
    rw [hsome] at hfound
    cases hfound
    split
    next hclose => rw [hclose]
    next hclose =>
      rw [hclose]
      congr 1

theorem not_variableName_iff {name : List Char} :
    name = [] ∨ name.all isVariableChar = false ↔ ¬VariableName name := by
  rw [VariableName, not_and_or, not_not, Bool.not_eq_true]

/-- A reference to a variable that is set is put in its place, and reading goes on behind it. -/
theorem interpolateEnv_reference {reference : Reference} {resolved : String}
    (hset : env (String.ofList reference.name) = some resolved) :
    interpolateEnv debug env path (reference.text ++ rest) =
      (interpolateEnv debug env path rest).map (reference.before ++ resolved.toList ++ ·) := by
  have htext : reference.text ++ rest =
      reference.before ++ (opening ++ (reference.name ++ closeBrace :: rest)) := by
    simp [Reference.text]
  have hname : ¬(reference.name = [] ∨ reference.name.all isVariableChar = false) :=
    fun h => not_variableName_iff.mp h reference.named
  rw [htext, interpolateEnv_opening reference.plain,
    Text.splitOnce_append reference.named.close_notMem]
  simp only [if_neg hname, hset]

/-- References to variables that are set are put in their places. -/
theorem interpolateEnv_references {front : List Char}
    (hfill : fillReferences env references = some front) :
    interpolateEnv debug env path (referencesText references ++ rest) =
      (interpolateEnv debug env path rest).map (front ++ ·) := by
  induction references generalizing front with
  | nil =>
    cases hfill
    rw [referencesText, List.flatMap_nil, List.nil_append]
    cases interpolateEnv debug env path rest <;> rfl
  | cons reference references ih =>
    obtain ⟨resolved, hset, hrest⟩ := Option.bind_eq_some_iff.mp hfill
    obtain ⟨output, houtput, heq⟩ := Option.bind_eq_some_iff.mp hrest
    cases heq
    rw [referencesText, List.flatMap_cons, List.append_assoc, interpolateEnv_reference hset]
    rw [← referencesText, ih houtput]
    cases interpolateEnv debug env path rest with
    | error => rfl
    | ok text => exact congrArg Except.ok (by simp)

/-- A template is read as its filling. -/
theorem interpolateEnv_template {template : Template} {output : List Char}
    (hfill : template.fill env = some output) :
    interpolateEnv debug env path template.text = .ok output := by
  obtain ⟨front, hfront, rfl⟩ := Option.map_eq_some_iff.mp hfill
  rw [Template.text, interpolateEnv_references hfront, interpolateEnv_plain template.plain]
  rfl

/-- A bad reference is reported. -/
theorem BadReference.interpolateEnv {tail : List Char} {error : ServerError}
    (hbad : BadReference debug env path tail error) (hplain : ¬opening <:+: before) :
    interpolateEnv debug env path (before ++ (opening ++ tail)) = .error error := by
  rw [interpolateEnv_opening hplain]
  cases hbad with
  | unterminated hclose => rw [Text.splitOnce_of_notMem hclose]
  | invalid hclose hname =>
    rw [Text.splitOnce_append hclose]
    exact if_pos (not_variableName_iff.mpr hname)
  | unset hname henv =>
    rw [Text.splitOnce_append hname.close_notMem]
    simp only [if_neg fun h => not_variableName_iff.mp h hname, henv]

theorem Broken.interpolateEnv {error : ServerError} {tail : List Char}
    (hbroken : Broken debug env path value error references before tail) :
    interpolateEnv debug env path value = .error error := by
  obtain ⟨front, hfront⟩ := Option.isSome_iff_exists.mp hbroken.set
  rw [hbroken.text, interpolateEnv_references hfront, hbroken.bad.interpolateEnv hbroken.plain]
  rfl

/-- How a value is written: a template that can be filled, or references up to a bad one. -/
inductive Reading (debug : String → String) (env : String → Option String) (path : String)
    (value : List Char) : Prop
  | filled (template : Template) (output : List Char) (htext : template.text = value)
      (hfill : template.fill env = some output)
  | broken (error : ServerError) (references : List Reference) (before tail : List Char)
      (hbroken : Broken debug env path value error references before tail)

/-- A reference in front of a value that is read. -/
theorem Reading.cons {reference : Reference} {resolved : String}
    (hset : env (String.ofList reference.name) = some resolved)
    (hreading : Reading debug env path rest) :
    Reading debug env path (reference.text ++ rest) := by
  cases hreading with
  | filled template output htext hfill =>
    obtain ⟨front, hfront, rfl⟩ := Option.map_eq_some_iff.mp hfill
    refine .filled ⟨reference :: template.references, template.last, template.plain⟩
      (reference.before ++ resolved.toList ++ front ++ template.last) ?_ ?_
    · rw [← htext, Template.text, Template.text, referencesText, List.flatMap_cons,
        List.append_assoc]
      rfl
    · simp [Template.fill, fillReferences, hset, hfront]
  | broken error references before tail hbroken =>
    obtain ⟨front, hfront⟩ := Option.isSome_iff_exists.mp hbroken.set
    refine .broken error (reference :: references) before tail ⟨?_, ?_, hbroken.plain, hbroken.bad⟩
    · rw [hbroken.text, referencesText, referencesText, List.flatMap_cons, List.append_assoc]
    · simp [fillReferences, hset, hfront]

/-- Every value is written in one of the two ways, by induction on its length. -/
theorem reading (debug : String → String) (env : String → Option String) (path : String)
    (value : List Char) : Reading debug env path value := by
  induction hlength : value.length using Nat.strong_induction_on generalizing value with
  | _ length ih =>
    subst hlength
    cases hsplit : splitReference value with
    | none =>
      have hplain := splitReference_eq_none.mp hsplit
      exact .filled ⟨[], value, hplain⟩ value rfl rfl
    | some parts =>
      obtain ⟨before, tail⟩ := parts
      obtain ⟨rfl, hplain⟩ := splitReference_eq_some hsplit
      have hbroken : ∀ error, BadReference debug env path tail error →
          Reading debug env path (before ++ (opening ++ tail)) :=
        fun error hbad => .broken error [] before tail ⟨rfl, rfl, hplain, hbad⟩
      cases hclose : Text.splitOnce closeBrace tail with
      | none => exact hbroken _ (.unterminated (notMem_of_splitOnce hclose))
      | some found =>
        obtain ⟨name, rest⟩ := found
        obtain ⟨rfl, hfront⟩ := Text.splitOnce_eq_some hclose
        by_cases hname : VariableName name
        · cases hset : env (String.ofList name) with
          | none => exact hbroken _ (.unset hname hset)
          | some resolved =>
            have hlt : rest.length <
                (before ++ (opening ++ (name ++ closeBrace :: rest))).length := by
              simp only [List.length_append, List.length_cons]
              omega
            let reference : Reference := ⟨before, name, hplain, hname⟩
            have hset' : env (String.ofList reference.name) = some resolved := hset
            simpa [Reference.text, reference] using (ih _ hlt rest rfl).cons hset'
        · exact hbroken _ (.invalid hfront hname)

/-! ## What a value is read as -/

theorem interpolateEnv_eq_ok {output : List Char} :
    interpolateEnv debug env path value = .ok output ↔
      ∃ template : Template, template.text = value ∧ template.fill env = some output := by
  constructor
  · intro h
    cases reading debug env path value with
    | filled template found htext hfill =>
      rw [← htext, interpolateEnv_template hfill] at h
      cases h
      exact ⟨template, htext, hfill⟩
    | broken error references before tail hbroken =>
      rw [hbroken.interpolateEnv] at h
      cases h
  · rintro ⟨template, rfl, hfill⟩
    exact interpolateEnv_template hfill

theorem interpolateEnv_eq_error {error : ServerError} :
    interpolateEnv debug env path value = .error error ↔
      ∃ references before tail, Broken debug env path value error references before tail := by
  constructor
  · intro h
    cases reading debug env path value with
    | filled template found htext hfill =>
      rw [← htext, interpolateEnv_template hfill] at h
      cases h
    | broken found references before tail hbroken =>
      rw [hbroken.interpolateEnv] at h
      cases h
      exact ⟨references, before, tail, hbroken⟩
  · rintro ⟨references, before, tail, hbroken⟩
    exact hbroken.interpolateEnv

/-- The first reference of a text, and what follows it. -/
theorem Reference.eq_of_text {reference reference' : Reference} {rest' : List Char}
    (h : reference.text ++ rest = reference'.text ++ rest') :
    reference = reference' ∧ rest = rest' := by
  have hsplit : ∀ (found : Reference) (after : List Char),
      splitReference (found.text ++ after) =
        some (found.before, found.name ++ closeBrace :: after) :=
    fun found after => by simpa [Reference.text] using splitReference_append found.plain _
  have hparts := (hsplit reference rest).symm.trans ((congrArg _ h).trans (hsplit reference' rest'))
  obtain ⟨hbefore, hafter⟩ := Prod.mk.inj (Option.some.inj hparts)
  have hnames := congrArg (Text.splitOnce closeBrace) hafter
  rw [Text.splitOnce_append reference.named.close_notMem,
    Text.splitOnce_append reference'.named.close_notMem] at hnames
  obtain ⟨hname, hrest⟩ := Prod.mk.inj (Option.some.inj hnames)
  refine ⟨?_, hrest⟩
  cases reference
  cases reference'
  cases hbefore
  cases hname
  rfl

theorem Reference.opening_infix (reference : Reference) (rest : List Char) :
    opening <:+: reference.text ++ rest :=
  ⟨reference.before, reference.name ++ [closeBrace] ++ rest, by simp [Reference.text]⟩

/-- A value is taken apart in one way. -/
theorem Template.eq_of_text {template template' : Template} (h : template.text = template'.text) :
    template = template' := by
  obtain ⟨references, last, hlast⟩ := template
  obtain ⟨references', last', hlast'⟩ := template'
  induction references generalizing references' with
  | nil =>
    cases references' with
    | nil =>
      cases show last = last' from h
      rfl
    | cons reference' references' =>
      simp only [Template.text, referencesText, List.flatMap_cons, List.flatMap_nil,
        List.nil_append, List.append_assoc] at h
      exact absurd (h ▸ reference'.opening_infix _) hlast
  | cons reference references ih =>
    cases references' with
    | nil =>
      simp only [Template.text, referencesText, List.flatMap_cons, List.flatMap_nil,
        List.nil_append, List.append_assoc] at h
      exact absurd (h ▸ reference.opening_infix _) hlast'
    | cons reference' references' =>
      simp only [Template.text, referencesText, List.flatMap_cons, List.append_assoc] at h
      obtain ⟨rfl, hrest⟩ := Reference.eq_of_text h
      cases ih references' hrest
      rfl

/-! ## Which variables are asked for -/

theorem mentions_of_mem {reference : Reference} (h : reference ∈ references) :
    Mentions (referencesText references ++ rest) (String.ofList reference.name) := by
  obtain ⟨front, back, rfl⟩ := List.append_of_mem h
  refine ⟨referencesText front ++ reference.before, referencesText back ++ rest, ?_⟩
  simp [referencesText, Reference.text]

theorem fillReferences_congr {env' : String → Option String}
    (h : ∀ reference ∈ references,
      env (String.ofList reference.name) = env' (String.ofList reference.name)) :
    fillReferences env references = fillReferences env' references := by
  induction references with
  | nil => rfl
  | cons reference references ih =>
    have hhead := h reference List.mem_cons_self
    have htail := ih fun found hmem => h found (List.mem_cons_of_mem _ hmem)
    rw [fillReferences, fillReferences, hhead, htail]

/-- Reading a value asks for no variable that the value does not name. -/
theorem interpolateEnv_congr {env' : String → Option String}
    (h : ∀ name, Mentions value name → env name = env' name) :
    interpolateEnv debug env path value = interpolateEnv debug env' path value := by
  cases reading debug env path value with
  | filled template output htext hfill =>
    subst htext
    have hsame := fillReferences_congr fun reference hmem => h _ (mentions_of_mem hmem)
    have hfill' : template.fill env' = some output := by
      rw [← hfill, Template.fill, Template.fill, hsame]
    rw [interpolateEnv_template hfill, interpolateEnv_template hfill']
  | broken error references before tail hbroken =>
    obtain ⟨rfl, hset, hplain, hbad⟩ := hbroken
    have hsame := fillReferences_congr fun reference hmem => h _ (mentions_of_mem hmem)
    have hbad' : BadReference debug env' path tail error := by
      cases hbad with
      | unterminated hclose => exact .unterminated hclose
      | invalid hclose hname => exact .invalid hclose hname
      | unset hname henv =>
        rename_i name rest
        refine .unset hname ((h _ ?_).symm.trans henv)
        exact ⟨referencesText references ++ before, rest, by simp⟩
    have hbroken' : Broken debug env' path _ error references before tail :=
      ⟨rfl, hsame ▸ hset, hplain, hbad'⟩
    rw [hbroken'.interpolateEnv]
    exact Broken.interpolateEnv ⟨rfl, hset, hplain, hbad⟩

/-! ## The mappings -/

theorem resolveRequired_blank {written : Option String}
    (hblank : ∀ value, written = some value → Text.trim value.toList = []) :
    resolveRequired debug env written path = .error (invalidConfigError path "is required") := by
  have hfilter : written.filter (fun value => !Text.isBlank value) = none := by
    cases written with
    | none => rfl
    | some value =>
      rw [Option.filter_some, Text.isBlank, decide_eq_true (hblank value rfl)]
      rfl
  unfold resolveRequired
  rw [hfilter]
  rfl

theorem resolveRequired_eq_ok {written : Option String} {resolved : String} :
    resolveRequired debug env written path = .ok resolved ↔ Resolves env written resolved := by
  constructor
  · intro h
    by_cases hblank : ∀ value, written = some value → Text.trim value.toList = []
    · rw [resolveRequired_blank hblank] at h
      cases h
    · push Not at hblank
      obtain ⟨value, rfl, hvalue⟩ := hblank
      rw [resolveRequired_some hvalue] at h
      obtain ⟨output, houtput, hlast⟩ := except_bind_eq_ok h
      split_ifs at hlast with hempty
      cases hlast
      obtain ⟨template, htext, hfill⟩ := interpolateEnv_eq_ok.mp houtput
      refine ⟨template, ?_, ?_, htext ▸ hvalue, ?_⟩
      · rw [htext, String.ofList_toList]
      · rw [hfill, String.toList_ofList]
      · rwa [String.toList_ofList]
  · rintro ⟨template, rfl, hfill, hwritten, hresolved⟩
    rw [resolveRequired_some (by rwa [String.toList_ofList]), String.toList_ofList,
      interpolateEnv_template hfill]
    refine (if_neg hresolved).trans ?_
    rw [String.ofList_toList]

theorem resolveRequired_congr {env' : String → Option String} {written : Option String}
    (h : ∀ value ∈ written, ∀ name, Mentions value.toList name → env name = env' name) :
    resolveRequired debug env written path = resolveRequired debug env' written path := by
  by_cases hblank : ∀ value, written = some value → Text.trim value.toList = []
  · rw [resolveRequired_blank hblank, resolveRequired_blank hblank]
  · push Not at hblank
    obtain ⟨value, rfl, hvalue⟩ := hblank
    rw [resolveRequired_some hvalue, resolveRequired_some hvalue,
      interpolateEnv_congr (h value rfl)]

theorem validateRouteHost_eq_ok_iff {host : String} :
    validateRouteHost host path = .ok () ↔ RouteHost host := by
  constructor
  · intro h
    obtain ⟨_, htrim, hlabels⟩ := except_bind_eq_ok h
    exact ⟨require_eq_ok htrim, require_eq_ok hlabels⟩
  · exact fun h => validateRouteHost_eq_ok h.1 h.2

theorem validateRouteComponent_eq_ok_iff {component : String} :
    validateRouteComponent component path = .ok () ↔ RouteComponent component := by
  constructor
  · intro h
    obtain ⟨_, htrim, hplain⟩ := except_bind_eq_ok h
    exact ⟨require_eq_ok htrim, require_eq_ok hplain⟩
  · rintro ⟨htrim, hdot, hdots, hplain⟩
    exact validateRouteComponent_eq_ok htrim
      ⟨fun h => hdot (String.toList_inj.mp h), fun h => hdots (String.toList_inj.mp h)⟩ hplain

/-- A mapping is accepted exactly when it can be read from what is written. -/
theorem fromRaw_eq_ok {raw : RawRepositoryMapping} {repository : RepositoryMapping} {index : ℕ} :
    RepositoryMapping.fromRaw debug env index raw = .ok repository ↔
      repository.ReadFrom env raw := by
  constructor
  · intro h
    unfold RepositoryMapping.fromRaw at h
    obtain ⟨id, hid, h⟩ := except_bind_eq_ok h
    obtain ⟨repoProvider, hprovider, h⟩ := except_bind_eq_ok h
    obtain ⟨host, hhost, h⟩ := except_bind_eq_ok h
    obtain ⟨_, hhostSafe, h⟩ := except_bind_eq_ok h
    obtain ⟨owner, howner, h⟩ := except_bind_eq_ok h
    obtain ⟨_, hownerSafe, h⟩ := except_bind_eq_ok h
    obtain ⟨name, hname, h⟩ := except_bind_eq_ok h
    obtain ⟨_, hnameSafe, h⟩ := except_bind_eq_ok h
    obtain ⟨_, hsuffix, h⟩ := except_bind_eq_ok h
    obtain ⟨stableId, hstable, h⟩ := except_bind_eq_ok h
    obtain ⟨storageProvider, hstorage, h⟩ := except_bind_eq_ok h
    cases h
    exact {
      id := resolveRequired_eq_ok.mp hid
      repoProvider := resolveRequired_eq_ok.mp hprovider
      host := resolveRequired_eq_ok.mp hhost
      owner := resolveRequired_eq_ok.mp howner
      name := resolveRequired_eq_ok.mp hname
      providerRepositoryId := resolveRequired_eq_ok.mp hstable
      storageProvider := resolveRequired_eq_ok.mp hstorage
      routeHost := validateRouteHost_eq_ok_iff.mp hhostSafe
      routeOwner := validateRouteComponent_eq_ok_iff.mp hownerSafe
      routeName := validateRouteComponent_eq_ok_iff.mp hnameSafe
      suffix := require_eq_ok hsuffix }
  · intro h
    have hresolve : ∀ {written : Option String} {resolved : String},
        Resolves env written resolved → ∀ path,
          resolveRequired debug env written path = .ok resolved :=
      fun hresolves _ => resolveRequired_eq_ok.mpr hresolves
    have hgit : ∀ path message,
        require (¬".git".toList <:+ repository.name.toList) path message = .ok () :=
      fun _ _ => if_pos h.suffix
    have hbind : ∀ {α β : Type} (a : α) (f : α → Except ServerError β),
        (Except.ok a >>= f) = f a := fun _ _ => rfl
    unfold RepositoryMapping.fromRaw
    simp only [hresolve h.id, hresolve h.repoProvider, hresolve h.host, hresolve h.owner,
      hresolve h.name, hresolve h.providerRepositoryId, hresolve h.storageProvider,
      validateRouteHost_eq_ok_iff.mpr h.routeHost,
      validateRouteComponent_eq_ok_iff.mpr h.routeOwner,
      validateRouteComponent_eq_ok_iff.mpr h.routeName, hgit, hbind]
    rfl

/-- The mappings of a configuration are read one by one. -/
theorem loadRepositories_eq_ok {raws : List RawRepositoryMapping}
    {repositories : List RepositoryMapping} :
    loadRepositories debug env raws = .ok repositories ↔
      List.Forall₂ (fun raw repository => repository.ReadFrom env raw) raws repositories := by
  suffices hrun : ∀ start, (raws.zipIdx start).mapM
      (fun indexed => RepositoryMapping.fromRaw debug env indexed.2 indexed.1) = .ok repositories ↔
        List.Forall₂ (fun raw repository => repository.ReadFrom env raw) raws repositories from
    hrun 0
  intro start
  induction raws generalizing start repositories with
  | nil =>
    rw [List.forall₂_nil_left_iff]
    exact ⟨fun h => (Except.ok.inj h).symm, fun h => congrArg Except.ok h.symm⟩
  | cons raw raws ih =>
    rw [List.zipIdx_cons, List.mapM_cons]
    constructor
    · intro h
      obtain ⟨first, hfirst, h⟩ := except_bind_eq_ok h
      obtain ⟨others, hothers, h⟩ := except_bind_eq_ok h
      cases h
      exact .cons (fromRaw_eq_ok.mp hfirst) ((ih _).mp hothers)
    · rintro (_ | ⟨hfirst, hothers⟩)
      rw [fromRaw_eq_ok.mpr hfirst, (ih (start + 1)).mpr hothers]
      rfl

/-- A mapping depends on no variable that its values do not name. -/
theorem fromRaw_congr {env' : String → Option String} {raw : RawRepositoryMapping} {index : ℕ}
    (h : ∀ value ∈ raw.values, ∀ name, Mentions value.toList name → env name = env' name) :
    RepositoryMapping.fromRaw debug env index raw =
      RepositoryMapping.fromRaw debug env' index raw := by
  have hfield : ∀ written ∈ [raw.id, raw.repoProvider, raw.host, raw.owner, raw.name,
      raw.providerRepositoryId, raw.storageProvider], ∀ path,
        resolveRequired debug env written path = resolveRequired debug env' written path := by
    intro written hmem path
    refine resolveRequired_congr fun value hvalue => h value ?_
    cases hvalue
    exact List.mem_filterMap.mpr ⟨some value, hmem, rfl⟩
  simp only [List.forall_mem_cons] at hfield
  obtain ⟨hid, hprovider, hhost, howner, hname, hstable, hstorage, _⟩ := hfield
  unfold RepositoryMapping.fromRaw
  simp only [hid, hprovider, hhost, howner, hname, hstable, hstorage]

theorem loadRepositories_congr {env' : String → Option String} {raws : List RawRepositoryMapping}
    (h : ∀ raw ∈ raws, ∀ value ∈ raw.values, ∀ name, Mentions value.toList name →
      env name = env' name) :
    loadRepositories debug env raws = loadRepositories debug env' raws := by
  have hstep : ∀ indexed ∈ raws.zipIdx,
      RepositoryMapping.fromRaw debug env indexed.2 indexed.1 =
        RepositoryMapping.fromRaw debug env' indexed.2 indexed.1 :=
    fun indexed hmem => fromRaw_congr (h indexed.1 (List.fst_mem_of_mem_zipIdx hmem))
  exact mapM_congr_mem hstep

/-- A value is read exactly as its only template with the variables put in their places once, or
fails exactly with its first bad reference. The mappings of a configuration are accepted exactly
when each can be read so from what is written of it and is safe in a route, and they depend on no
variable that their values do not name. -/
theorem environment_references_exact (debug : String → String) (env : String → Option String) :
    (∀ path value output, interpolateEnv debug env path value = .ok output ↔
      ∃ template : Template, template.text = value ∧ template.fill env = some output) ∧
    (∀ template template' : Template, template.text = template'.text → template = template') ∧
    (∀ path value error, interpolateEnv debug env path value = .error error ↔
      ∃ references before tail, Broken debug env path value error references before tail) ∧
    (∀ raws repositories, loadRepositories debug env raws = .ok repositories ↔
      List.Forall₂ (fun raw repository => repository.ReadFrom env raw) raws repositories) ∧
    (∀ env' raws, (∀ raw ∈ raws, ∀ value ∈ raw.values, ∀ name, Mentions value.toList name →
      env name = env' name) → loadRepositories debug env raws = loadRepositories debug env' raws) :=
  ⟨fun _ _ _ => interpolateEnv_eq_ok, fun _ _ => Template.eq_of_text,
    fun _ _ _ => interpolateEnv_eq_error, fun _ _ => loadRepositories_eq_ok,
    fun _ _ => loadRepositories_congr⟩

/-- What a variable holds is not read again. -/
example : interpolateEnv id (fun _ => some (String.ofList (opening ++ ['A', closeBrace]))) "path"
    (opening ++ ['A', closeBrace]) = .ok (opening ++ ['A', closeBrace]) := by
  let template : Template := ⟨[⟨[], ['A'], by decide, by decide⟩], [], by decide⟩
  have hfill : template.fill (fun _ => some (String.ofList (opening ++ ['A', closeBrace]))) =
      some (opening ++ ['A', closeBrace]) := rfl
  exact interpolateEnv_template hfill

end LfsCloud.ServerConfig
