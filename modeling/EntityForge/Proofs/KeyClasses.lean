import EntityForge.Proofs.DeclaredConstructors
import EntityForge.Proofs.EqualityContract

/-!
# Classes of composite keys

A class of composite keys that declares no constructor is made from its attributes alone. Whatever lists its methods
have, equality, hash code and text are over all its own attributes, and so is its constructor beside the empty one. What
is kept of the methods is the code written by hand.

What a body is over is read off its statements: the fields that they read, and the code that they hold. These are the
statements that its text spells, and the texts of the constructors are read back as well.

Main statement: `key_classes_cover_their_attributes`.
-/

namespace EntityForge

open Java

/-! ## What statements are over -/

namespace Java

/-- The fields of a receiver that an expression reads. -/
def Expression.fieldsOf (receiver : String) : Expression → List String
  | .field owner name => if owner = receiver then [name] else []
  | .apply _ argument => argument.fieldsOf receiver
  | .apply₂ _ first second => first.fieldsOf receiver ++ second.fieldsOf receiver
  | .bit condition => condition.fieldsOf receiver
  | .folded wide => wide.fieldsOf receiver
  | .unequal left right => left.fieldsOf receiver ++ right.fieldsOf receiver
  | .negation condition => condition.fieldsOf receiver

/-- The variable whose value is a part of a text. -/
def TextPart.variable? : TextPart → Option String
  | .variable name => some name
  | .literal _ => none

/-- The fields of a receiver that a statement reads. A variable in a text is a field of the object itself. -/
def Statement.fieldsOf (receiver : String) : Statement → List String
  | .refuseIf (.holds condition) => condition.fieldsOf receiver
  | .mixHash _ term => term.fieldsOf receiver
  | .returnText parts => if receiver = "this" then parts.filterMap TextPart.variable? else []
  | _ => []

/-- The code written by hand that a statement is. -/
def Statement.code? : Statement → Option String
  | .code raw => some raw
  | _ => none

/-- Statements that read these fields of a receiver, in this order, and hold this code. -/
structure Reads (receiver : String) (statements : List Statement) (names code : List String) : Prop where
  fields : statements.flatMap (·.fieldsOf receiver) = names
  held : statements.filterMap Statement.code? = code

namespace Reads

variable {receiver : String} {statements others : List Statement} {names names' code code' : List String}

theorem append (h : Reads receiver statements names code) (hothers : Reads receiver others names' code') :
    Reads receiver (statements ++ others) (names ++ names') (code ++ code') where
  fields := by rw [List.flatMap_append, h.fields, hothers.fields]
  held := by rw [List.filterMap_append, h.held, hothers.held]

/-- Nothing is read by statements that each read nothing. -/
theorem nothing (h : ∀ s ∈ statements, s.fieldsOf receiver = [] ∧ s.code? = none) :
    Reads receiver statements [] [] where
  fields := List.flatMap_eq_nil_iff.mpr fun s hs => (h s hs).1
  held := List.filterMap_eq_nil_iff.mpr fun s hs => (h s hs).2

/-- Code written by hand is held as it is. -/
theorem ofCode (receiver : String) (raw : Option String) :
    Reads receiver (raw.map Statement.code).toList [] raw.toList := by
  cases raw with
  | none => exact ⟨rfl, rfl⟩
  | some text => exact ⟨rfl, rfl⟩

/-- Statements for members, each of which reads the field of its member, read these fields. -/
theorem each {statement : Member → Statement} (members : List Member)
    (h : ∀ m, (statement m).fieldsOf receiver = [m.name] ∧ (statement m).code? = none) :
    Reads receiver (members.map statement) (members.map (·.name)) [] where
  fields := by
    rw [List.flatMap_map, List.map_eq_flatMap]
    exact List.flatMap_congr fun m _ => (h m).1
  held := by
    rw [List.filterMap_map]
    exact List.filterMap_eq_nil_iff.mpr fun m _ => (h m).2

end Reads

/-- A comparison reads its field once of either object. -/
theorem fieldsOf_differs (shape : Shape) (name : String) :
    (shape.differs name).fieldsOf "this" = [name] ∧ (shape.differs name).fieldsOf "other" = [name] := by
  cases shape <;> simp [Shape.differs, Expression.this, Expression.other, Expression.fieldsOf]

theorem fieldsOf_hashTerm (shape : Shape) (name : String) : (shape.hashTerm name).fieldsOf "this" = [name] := by
  cases shape with
  | primitive type => cases type <;> rfl
  | floating type => cases type <;> rfl
  | array nested => rfl
  | object => rfl

end Java

namespace MethodInput

variable {className : String} {input : MethodInput}

theorem variables_textParts (before : String) (names : List String) :
    (textParts before names).filterMap TextPart.variable? = names := by
  induction names generalizing before with
  | nil => rfl
  | cons name rest ih =>
    cases rest with
    | nil => rfl
    | cons next others =>
      show name :: (textParts ", " (next :: others)).filterMap TextPart.variable? = name :: next :: others
      rw [ih]

/-- The code written by hand around the members. -/
def hooks (input : MethodInput) : List String :=
  input.pre.toList ++ input.post.toList

/-- Statements for the members, with the code written by hand around them, and around this what reads nothing. -/
theorem reads_framed {receiver : String} {opening closing : List Statement} {statement : Member → Statement}
    (input : MethodInput) (hopening : Reads receiver opening [] [])
    (hstatement : ∀ m, (statement m).fieldsOf receiver = [m.name] ∧ (statement m).code? = none)
    (hclosing : Reads receiver closing [] []) :
    Reads receiver (opening ++ input.preStatements ++ input.members.map statement ++ input.postStatements ++ closing)
      (input.members.map (·.name)) input.hooks := by
  have hall := (((hopening.append (.ofCode receiver input.pre)).append (.each input.members hstatement)).append
    (.ofCode receiver input.post)).append hclosing
  simpa [hooks, preStatements, postStatements] using hall

/-- The comparisons of `equals` read the fields of both objects. -/
theorem reads_equalsStatements (input : MethodInput) (className : String) {receiver : String}
    (h : receiver = "this" ∨ receiver = "other") :
    Reads receiver (input.equalsStatements className) (input.members.map (·.name)) input.hooks := by
  refine input.reads_framed (.nothing ?_) (fun m => ⟨?_, rfl⟩) (.nothing ?_)
  · simp [Statement.fieldsOf, Statement.code?]
  · obtain ⟨hthis, hother⟩ := fieldsOf_differs m.shape m.name
    rcases h with rfl | rfl
    · exact hthis
    · exact hother
  · simp [Statement.fieldsOf, Statement.code?]

theorem reads_hashCodeStatements (input : MethodInput) (primes : PrimePair) :
    Reads "this" (input.hashCodeStatements primes) (input.members.map (·.name)) input.hooks := by
  refine input.reads_framed (.nothing ?_) (fun m => ⟨fieldsOf_hashTerm m.shape m.name, rfl⟩) (.nothing ?_)
  · simp [Statement.fieldsOf, Statement.code?]
  · simp [Statement.fieldsOf, Statement.code?]

/-- All code written by hand stands in front of the text. -/
theorem reads_toStringStatements (input : MethodInput) (className : String) :
    Reads "this" (input.toStringStatements className) (input.members.map (·.name)) input.hooks := by
  have htext : Reads "this" [.returnText (textParts (className ++ "\x7b") (input.members.map (·.name)))]
      (input.members.map (·.name)) [] := by
    refine ⟨?_, rfl⟩
    rw [List.flatMap_singleton]
    exact variables_textParts _ _
  have hall := ((Reads.ofCode "this" input.pre).append (.ofCode "this" input.post)).append htext
  simpa [hooks, toStringStatements, preStatements, postStatements] using hall

end MethodInput

/-! ## Bodies of methods -/

/-- The code that a method has written by hand, trimmed, without what is blank. -/
def MethodModel.hooks (method : MethodModel) : List String :=
  ([method.preCode, method.postCode].filterMap Text.nonBlank?).map Text.trim

/-- The body reads the fields of these names, each as often as it is among them and in their order, and holds the code
written by hand for the method. Its text spells the statements that do this. It is left out exactly when there is neither
a name nor such code. -/
structure Covers (names : List String) (method : MethodModel) (body : Option (List Statement)) : Prop where
  absent : body = none ↔ names = [] ∧ method.hooks = []
  reads : ∀ statements ∈ body, Reads "this" statements names method.hooks
  spelled : ∀ statements ∈ body, Spells (bodyText statements) statements

namespace MethodInput

variable {className : String} {input : MethodInput} {method : MethodModel} {statements : List Statement}
  {body : Option (List Statement)}

/-- A method keeps the code that its model has. -/
theorem hooks_eq (hpre : input.preCode = method.preCode) (hpost : input.postCode = method.postCode) :
    input.hooks = method.hooks := by
  unfold hooks MethodModel.hooks pre post
  rw [hpre, hpost]
  cases hbefore : Text.nonBlank? method.preCode <;> cases hbehind : Text.nonBlank? method.postCode <;>
    simp [hbefore, hbehind]

/-- There is no body exactly when there is nothing to put into it. -/
theorem body_eq_none_iff (h : input.body className statements = .ok body) :
    body = none ↔ input.members = [] ∧ input.hooks = [] := by
  have hempty : input.isEmpty = true ↔ input.members = [] ∧ input.hooks = [] := by
    simp [isEmpty, hooks, and_assoc]
  rw [← hempty]
  unfold MethodInput.body at h
  split at h
  · next hyes => exact iff_of_true (Except.ok.inj h).symm hyes
  · next hno =>
    split at h
    · exact absurd h (by simp)
    · exact iff_of_false (by simp [← Except.ok.inj h]) hno

/-- A body that is there reads what its statements read. -/
theorem reads_of_body_eq_ok {receiver : String} {names : List String} (hmembers : input.members.map (·.name) = names)
    (hcode : input.hooks = method.hooks)
    (hreads : Reads receiver statements (input.members.map (·.name)) input.hooks)
    (h : input.body className statements = .ok body) : ∀ found ∈ body, Reads receiver found names method.hooks := by
  intro found hfound
  rw [Option.mem_def.mp hfound] at h
  rw [(eq_of_body_eq_some h).1, ← hmembers, ← hcode]
  exact hreads

theorem covers_of_body_eq_ok {names : List String} (hmembers : input.members.map (·.name) = names)
    (hcode : input.hooks = method.hooks) (hreads : Reads "this" statements (input.members.map (·.name)) input.hooks)
    (hspells : input.fault? className = none → Spells (bodyText statements) statements)
    (h : input.body className statements = .ok body) : Covers names method body where
  absent := by rw [body_eq_none_iff h, ← hmembers, hcode, List.map_eq_nil_iff]
  reads := reads_of_body_eq_ok hmembers hcode hreads h
  spelled := by
    intro found hfound
    rw [Option.mem_def.mp hfound] at h
    obtain ⟨rfl, hfault⟩ := eq_of_body_eq_some h
    exact hspells hfault

end MethodInput

/-! ## Keys -/

/-- A public constructor over attributes as it is read from its text: it declares a parameter for each, in their order,
and assigns each to the field of its name. -/
def ConstructorReading.over (className : String) (attributes : List Attribute) : ConstructorReading where
  heading := headingOf .publicAccess className (attributes.map fun a => { name := a.name, type := a.dataType })
  statements := statementsOf [] (attributes.map (·.name))

/-- What a class of composite keys is made of when all of it is made from its attributes. -/
structure MadeFromAttributes (c : ClassModel) (artifact : JavaClass) : Prop where
  /-- No two attributes have one name. -/
  distinct : (c.attributes.map (·.name)).Nodup
  /-- The fields are those of the attributes, one by one. -/
  fields : List.Forall₂ (fun a f => f.name = a.name ∧ f.type = a.dataType) c.attributes artifact.fields
  /-- There is a public constructor without parameters and, if there are attributes, one that assigns all fields. -/
  constructors : artifact.constructors
    = { access := .publicAccess, inherited := [], own := [] }
      :: if c.attributes = [] then [] else [{ access := .publicAccess, inherited := [], own := artifact.fields }]
  /-- Read from their texts, the constructors are one over nothing and, if there are attributes, one over all of them. -/
  constructorTexts : artifact.constructors.map (fun k => ConstructorReading.ofText? (k.signature c.name).text)
    = some (.over c.name []) :: if c.attributes = [] then [] else [some (.over c.name c.attributes)]
  equality : Covers (c.attributes.map (·.name)) c.equalsMethod artifact.equalsMethod
  /-- Equality reads the same fields of the object that it compares with. -/
  comparison : ∀ statements ∈ artifact.equalsMethod,
    Reads "other" statements (c.attributes.map (·.name)) c.equalsMethod.hooks
  hashing : Covers (c.attributes.map (·.name)) c.hashCodeMethod artifact.hashCodeMethod
  printing : Covers (c.attributes.map (·.name)) c.toStringMethod artifact.toStringMethod

/-- The text of a public constructor over the fields of attributes is read as that of one over these attributes. -/
theorem ofText?_signature {attributes : List Attribute} {fields : List JavaField}
    (hfields : List.Forall₂ (fun a f => f.name = a.name ∧ f.type = a.dataType) attributes fields)
    (hnames : ∀ a ∈ attributes, isIdentifier a.name = true) (className : String) :
    ConstructorReading.ofText?
        (({ access := .publicAccess, inherited := [], own := fields } : JavaConstructor).signature className).text
      = some (.over className attributes) := by
  have hparameters : (fields.map fun f => ({ name := f.name, type := f.type } : Parameter))
      = attributes.map fun a => { name := a.name, type := a.dataType } :=
    map_eq_of_forall₂ (fun a f hf => by rw [hf.1, hf.2]) hfields
  have hidentifiers : ∀ p ∈ attributes.map fun a => ({ name := a.name, type := a.dataType } : Parameter),
      isIdentifier p.name = true := by
    simpa using hnames
  rw [JavaConstructor.signature, hparameters, List.map_nil, Signature.ofText?_text (by exact hidentifiers)]
  simp [Signature.heading, Signature.statements, Signature.parameters, ConstructorReading.over, Function.comp_def]

/-- The constructor over nothing and, if there are attributes, the one over all fields are read as what they are. -/
theorem map_ofText?_signature {attributes : List Attribute} {fields : List JavaField}
    (hfields : List.Forall₂ (fun a f => f.name = a.name ∧ f.type = a.dataType) attributes fields)
    (hnames : ∀ a ∈ attributes, isIdentifier a.name = true) (className : String) :
    ({ access := .publicAccess, inherited := [], own := [] }
        :: if attributes = [] then [] else [{ access := .publicAccess, inherited := [], own := fields }]).map
        (fun k : JavaConstructor => ConstructorReading.ofText? (k.signature className).text)
      = some (.over className []) :: if attributes = [] then [] else [some (.over className attributes)] := by
  have hnone : ∀ a ∈ ([] : List Attribute), isIdentifier a.name = true := by simp
  rw [List.map_cons, ofText?_signature .nil hnone className]
  split
  · rfl
  · rw [List.map_singleton, ofText?_signature hfields hnames className]

namespace Workplace

variable {w : Workplace} {memo memo' : FieldMemo} {method : MethodModel} {input : MethodInput} {names : List String}

/-- The methods of a composite key are over its attributes. -/
theorem methodNames_of_isIdentity (h : w.isIdentity = true) (method : MethodModel) :
    w.methodNames method = w.subject.attributes.map (·.name) :=
  if_pos h

/-- The members of a method have the names that it is over, and the code is the one that the model gives. -/
theorem Remembers.members_and_hooks (hmemo : w.Remembers memo)
    (h : w.methodInput memo names method = .ok (input, memo')) :
    input.members.map (·.name) = names ∧ input.hooks = method.hooks := by
  obtain ⟨hmembers, hpre, hpost, -⟩ := hmemo.methodInput h
  have hnames := map_eq_of_forall₂ (fun _ _ hmember => hmember.1) hmembers
  exact ⟨hnames.trans (List.map_id' names), MethodInput.hooks_eq hpre hpost⟩

/-- A constructor over fields that the class declares assigns them all. -/
theorem constructorOver_of_declared {fs : List JavaField} (h : ∀ f ∈ fs, f.declared = true) (access : Access) :
    constructorOver access fs = { access, inherited := [], own := fs } := by
  have hinherited : fs.filter (!·.declared) = [] := List.filter_eq_nil_iff.mpr fun f hf => by simp [h f hf]
  rw [constructorOver, hinherited, List.filter_eq_self.mpr h]

/-- A composite key has a constructor without parameters and, if there are names, one over all their fields. -/
theorem Remembers.identityConstructors_eq (hmemo : w.Remembers memo) {ks : List JavaConstructor} {fs : List JavaField}
    (h : w.identityConstructors memo names = .ok (ks, memo')) (hfields : names.mapM w.fieldAnew = .ok fs) :
    ks = constructorOver .publicAccess [] :: if names = [] then [] else [constructorOver .publicAccess fs] := by
  obtain ⟨_, hanew, rfl, -⟩ := (hmemo.alike_identityConstructors names).exists_right h
  obtain ⟨empty, hempty, hanew⟩ := bind_eq_ok_iff.mp hanew
  obtain ⟨none, hnone, rfl, -⟩ := constructorAnew_eq_ok_iff.mp hempty
  obtain rfl : none = [] := (Except.ok.inj hnone).symm
  by_cases hnames : names = []
  · rw [if_pos (by simpa using hnames)] at hanew
    rw [if_pos hnames]
    exact (Except.ok.inj hanew).symm
  · rw [if_neg (by simpa using hnames)] at hanew
    obtain ⟨full, hfull, hanew⟩ := bind_eq_ok_iff.mp hanew
    obtain ⟨all, hall, rfl, -⟩ := constructorAnew_eq_ok_iff.mp hfull
    obtain rfl : all = fs := Except.ok.inj (hall.symm.trans hfields)
    rw [if_neg hnames]
    exact (Except.ok.inj hanew).symm

end Workplace

namespace Draft.Parts

variable {w : Workplace} (parts : Draft.Parts w)

/-- The fields of the class are those that the names of its attributes stand for. -/
theorem mapM_fieldAnew : (w.subject.attributes.map (·.name)).mapM w.fieldAnew = .ok parts.fields := by
  obtain ⟨fs, hfs, hsame, -⟩ := (Workplace.remembers_nil.alike_fields _).exists_right parts.fields_eq
  rw [hfs, ← hsame]

/-- A composite key has the constructors that its attributes give it. -/
theorem constructors_of_isIdentity (h : w.isIdentity = true) :
    parts.constructors
      = { access := .publicAccess, inherited := [], own := [] }
        :: if w.subject.attributes = [] then []
          else [{ access := .publicAccess, inherited := [], own := parts.fields }] := by
  have hequality := (parts.remembers_fieldMemo.members_and_hooks parts.equality_eq).1
  have hdeclared : ∀ f ∈ parts.fields, f.declared = true := by
    intro f hf
    obtain ⟨a, -, hfield⟩ := exists_mem_right_of_forall₂ parts.ofAttribute_fields.flip hf
    exact JavaField.declared_of_ofAttribute_eq_ok hfield
  have hidentity := parts.constructors_eq
  -- The names of the constructor are those of the members of equality, which are all attributes.
  rw [Workplace.allConstructors, if_pos h, hequality, Workplace.methodNames_of_isIdentity h] at hidentity
  rw [parts.remembers_printingMemo.identityConstructors_eq hidentity parts.mapM_fieldAnew,
    Workplace.constructorOver_of_declared hdeclared]
  simp [Workplace.constructorOver]

end Draft.Parts

section Assembled

variable {σ : Type} [PrimeSource σ] {model : Metamodel} {options : GenerationOptions} {c : ClassModel}
  {primes primes' : σ} {artifact : JavaClass}

/-- **Composite keys are made from their attributes.** A class of composite keys is assembled for which no constructor is
declared. Whatever its methods list as their members, it has a public constructor without parameters and, if it has
attributes, another one that assigns each of them, in the order of their declaration; and its equality, its hash code and
its text are over exactly its attributes, each once and in that order, and over the code written by hand for the method.
A body is left out exactly when there are neither attributes nor such code. Constructors and bodies are so as they are
read from their texts, too. -/
theorem key_classes_cover_their_attributes (hkind : c.kind = .idClass ∨ c.kind = .embeddedId)
    (hnone : c.constructors = []) (h : assemble model options c primes = (.ok artifact, primes')) :
    MadeFromAttributes c artifact := by
  obtain ⟨parts, pair, -, hfinish⟩ := exists_parts_of_assemble_eq_ok h
  obtain ⟨hashCodeMethod, toStringMethod, hhash, hprint, rfl⟩ := Draft.exists_methods_of_finish hfinish
  have hidentity : Workplace.isIdentity { model, options, subject := c } = true := by
    rcases hkind with hkind | hkind <;> simp [Workplace.isIdentity, ClassKind.isIdentifier, hkind, hnone]
  have hnames := Workplace.methodNames_of_isIdentity hidentity
  -- The names that the methods list are not looked at, and so it does not matter what they stand for.
  obtain ⟨hequality, hequalityCode⟩ := parts.remembers_fieldMemo.members_and_hooks parts.equality_eq
  obtain ⟨hhashing, hhashingCode⟩ := parts.remembers_equalityMemo.members_and_hooks parts.hashing_eq
  obtain ⟨hprinting, hprintingCode⟩ := parts.remembers_hashingMemo.members_and_hooks parts.printing_eq
  rw [hnames] at hequality hhashing hprinting
  have hfields : List.Forall₂ (fun a f => f.name = a.name ∧ f.type = a.dataType) c.attributes parts.fields :=
    parts.ofAttribute_fields.imp fun a f hfield =>
      have hattribute := JavaField.eq_of_ofAttribute_eq_ok hfield
      ⟨hattribute.1, hattribute.2.1⟩
  have hidentifiers := isIdentifier_of_attributeFault?_eq_none parts.attributes_eq
  have hconstructors := parts.constructors_of_isIdentity hidentity
  exact
    { distinct := (nodup_of_attributeFault?_eq_none parts.attributes_eq).1
      fields := hfields
      constructors := hconstructors
      constructorTexts := by
        show parts.constructors.map _ = _
        rw [hconstructors, map_ofText?_signature hfields hidentifiers c.name]
      equality := MethodInput.covers_of_body_eq_ok hequality hequalityCode
        (parts.equality.reads_equalsStatements c.name (.inl rfl)) MethodInput.spells_equals parts.equalsMethod_eq
      comparison := MethodInput.reads_of_body_eq_ok hequality hequalityCode
        (parts.equality.reads_equalsStatements c.name (.inr rfl)) parts.equalsMethod_eq
      hashing := MethodInput.covers_of_body_eq_ok hhashing hhashingCode
        (parts.hashing.reads_hashCodeStatements pair) (fun hfault => MethodInput.spells_hashCode hfault pair) hhash
      printing := MethodInput.covers_of_body_eq_ok hprinting hprintingCode
        (parts.printing.reads_toStringStatements c.name) MethodInput.spells_toString hprint }

end Assembled

/-- The key of a line of an order. Its equality lists a name that stands for nothing and one twice, and has code written
by hand; its hash code and its text list nothing, and what is written by hand for the text is blank. -/
def orderLineKey : ClassModel :=
  { ClassModel.empty "OrderLineKey" .embeddedId with
    superclass := some "Base"
    attributes := [.plain "order" "long", .plain "line" "int"]
    equalsMethod := { MethodModel.of ["nowhere", "line", "line"] with preCode := some "  audit();" }
    toStringMethod := { MethodModel.of [] with postCode := some " " } }

/-- All three methods of the key are over both attributes, and the code is kept in the equality. -/
theorem key_classes_cover_their_attributes_orderLineKey :
    ∃ artifact primes,
      assemble accounts .standard orderLineKey (PrimeSupply.listed [⟨3, 11⟩]) = (.ok artifact, primes)
        ∧ artifact.constructors.map (fun k => (k.signature "OrderLineKey").text)
          = ["public OrderLineKey() \x7b\n\x7d", "public OrderLineKey(long order, int line) \x7b\n"
            ++ "    this.order = order;\n    this.line = line;\n\x7d"]
        ∧ orderLineKey.equalsMethod.hooks = ["audit();"] ∧ orderLineKey.toStringMethod.hooks = []
        ∧ MadeFromAttributes orderLineKey artifact := by
  obtain ⟨artifact, primes, hassemble, hsummary⟩ :=
    exists_ok_of_summary (assemble accounts .standard orderLineKey (PrimeSupply.listed [⟨3, 11⟩]))
      (fun artifact => artifact.constructors.map fun k => (k.signature "OrderLineKey").text)
      (b := ["public OrderLineKey() \x7b\n\x7d", "public OrderLineKey(long order, int line) \x7b\n"
        ++ "    this.order = order;\n    this.line = line;\n\x7d"]) (by decide +kernel)
  exact ⟨artifact, primes, hassemble, hsummary, by decide +kernel, by decide +kernel,
    key_classes_cover_their_attributes (.inr rfl) rfl hassemble⟩

end EntityForge
