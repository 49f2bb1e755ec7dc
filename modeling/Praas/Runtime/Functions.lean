import Praas.Process.Controller

/-! # The functions of a process, read from its configuration

`Functions::initialize`: the document names the functions of each language, each with its
trigger and its code. Some members are looked up and checked, others are taken to be there;
the end of the one object is compared with the end of another.

* `parseFunction_cases`: what comes of one function, by the shape of its configuration.
* `addFunctions_cases`: what comes of all of them; the first one that is refused ends it.
* `initializeFunctions_clean_iff`: for which documents the loader either raises `InvalidJSON` or has
  exactly the functions that are listed.
* `controller_knows_iff`: then these are the functions that the controller knows.

Parsing the text is left out: a text that cannot be parsed gives the null value.
-/

namespace Praas.Runtime.Configuration

/-! ## JSON values, as `rapidjson` accesses them -/

/-- `rapidjson::Value`; the numbers and the elements of an array are not looked at. -/
inductive Value where
  | null
  | bool (b : Bool)
  | number
  | string (s : Str)
  | array
  | object (members : List (Str × Value))

/-- What ends a load: the exception of the loader, or an access that finds nothing of the
kind that it takes to be there. -/
inductive Failure where
  | invalidJSON (what : Str)
  | notObject
  | notString
  | missingMember
  | endIterator

def Failure.isInvalidJSON : Failure → Bool
  | invalidJSON _ => true
  | _ => false

def text (s : String) : Str := str s.toList

/-- A `std::string` from a pointer to its characters. -/
def cString (s : Str) : Str := s.takeWhile (· ≠ 0)

namespace Value

/-- `FindMember`: the first member of the name; `none` is the end of the object. -/
def findMember (v : Value) (name : Str) : Except Failure (Option Value) :=
  match v with
  | object members => .ok (members.lookup name)
  | _ => .error .notObject

/-- `operator[]`. -/
def get (v : Value) (name : Str) : Except Failure Value := do
  match ← v.findMember name with
  | some member => return member
  | none => throw .missingMember

def getString : Value → Except Failure Str
  | string s => .ok (cString s)
  | _ => .error .notString

/-- The text of a member, looked up unchecked. -/
def getText (v : Value) (name : Str) : Except Failure Str := do (← v.get name).getString

/-- The loader's check of a member: it is there, and an object. -/
def findObject (v : Value) (name : Str) : Except Failure (Option Value) := do
  match ← v.findMember name with
  | some (object members) => return some (object members)
  | _ => return none

/-- The value behind an iterator. -/
def deref : Option Value → Except Failure Value
  | some v => .ok v
  | none => .error .endIterator

end Value

/-! ## The loader -/

inductive Language where
  | cpp
  | python
  | none

def languageToString : Language → Str
  | .cpp => text "cpp"
  | .python => text "python"
  | .none => []

structure DirectTrigger where
  name : Str

structure Function where
  trigger : DirectTrigger
  moduleName : Str
  functionName : Str

/-- `Functions`: the map from a name to its function. -/
abbrev Functions := Str → Option Function

def direct : Str := text "direct"

/-- `fmt::format` of a message that ends with a name. -/
def invalid (what : String) (name : Str) : Failure := .invalidJSON (text what ++ name)

/-- `Trigger::parse`. -/
def Trigger.parse (fname : Str) (obj : Value) : Except Failure DirectTrigger := do
  match ← obj.findObject (text "trigger") with
  | none => throw (invalid "Could not parse trigger configuration for " fname)
  | some trigger =>
    let triggerType ← trigger.getText (text "type")
    if triggerType = direct then return { name := fname }
    else throw (invalid "Could not parse trigger type " triggerType)

/-- One round of the loop, up to the function that it puts into the map. -/
def parseFunction (fname : Str) (cfg : Value) : Except Failure Function := do
  let trigger ← Trigger.parse fname cfg
  match ← cfg.findObject (text "code") with
  | none => throw (invalid "Could not parse code configuration for " fname)
  | some code =>
    let moduleName ← code.getText (text "module")
    let functionName ← code.getText (text "function")
    return { trigger := trigger, moduleName := moduleName, functionName := functionName }

/-- `emplace`: a function that is there stays. -/
def Functions.emplace (t : Functions) (fname : Str) (f : Function) : Functions :=
  fun name => (t name).or (if name = fname then some f else none)

def addFunction (t : Functions) (cfg : Str × Value) : Except Failure Functions := do
  let fname := cString cfg.1
  let f ← parseFunction fname cfg.2
  return t.emplace fname f

/-- What is done with the value of the language. -/
def readLanguage (language : Language) : Value → Except Failure Functions
  | .object members => members.foldlM addFunction fun _ => none
  | _ =>
    throw (invalid "Could not parse configuration for language " (languageToString language))

/-- `Functions::initialize`. -/
def initializeFunctions (doc : Value) (language : Language) : Except Failure Functions := do
  let it ← (← doc.get (text "functions")).findMember (languageToString language)
  -- compared with the end of the document, which the end of another object is not
  readLanguage language (← Value.deref it)

/-! ## What a document lists -/

def objectAt (members : List (Str × Value)) (name : Str) : Option (List (Str × Value)) :=
  match members.lookup name with
  | some (.object inner) => some inner
  | _ => none

def stringAt (members : List (Str × Value)) (name : Str) : Option Str :=
  match members.lookup name with
  | some (.string s) => some s
  | _ => none

/-- The functions under `functions` and the language. -/
def listed (doc : Value) (language : Language) : Option (List (Str × Value)) :=
  match doc with
  | .object top => do
    let functions ← objectAt top (text "functions")
    objectAt functions (languageToString language)
  | _ => none

/-- The strings that make up a function. -/
structure Fields where
  type : Str
  moduleName : Str
  functionName : Str

def fields (cfg : Value) : Option Fields :=
  match cfg with
  | .object members => do
    let type ← stringAt (← objectAt members (text "trigger")) (text "type")
    let code ← objectAt members (text "code")
    return ⟨type, ← stringAt code (text "module"), ← stringAt code (text "function")⟩
  | _ => none

/-- The function that a configuration describes. -/
def described (name : Str) (cfg : Value) : Option Function := do
  let x ← fields cfg
  if x.type = direct then some ⟨⟨name⟩, x.moduleName, x.functionName⟩ else none

/-- Every function of the list is in the table as it is described, and no other is. -/
structure Functions.Contains (t : Functions) (members : List (Str × Value)) : Prop where
  all : ∀ m ∈ members, ∃ f, described m.1 m.2 = some f ∧ t m.1 = some f
  only : ∀ name f, t name = some f → ∃ m ∈ members, m.1 = name

/-- What a load may come to: `InvalidJSON`, or a table of what is listed. -/
def Clean (doc : Value) (language : Language) : Except Failure Functions → Prop
  | .ok t => ∃ members, listed doc language = some members ∧ t.Contains members
  | .error e => e.isInvalidJSON = true

/-! ## Which documents load cleanly -/

/-- The unchecked accesses to a function find what they look for: it is an object, its
trigger has a type, and, if that is direct, its code has a module and a function. -/
def Readable (cfg : Value) : Prop :=
  ∃ members, cfg = .object members ∧ ∀ trigger, objectAt members (text "trigger") = some trigger →
    ∃ type, stringAt trigger (text "type") = some type ∧
      (cString type = direct → ∀ code, objectAt members (text "code") = some code →
        (∃ s, stringAt code (text "module") = some s) ∧
          ∃ s, stringAt code (text "function") = some s)

/-- All fields are there, and the type is direct up to its first NUL. -/
def Accepted (cfg : Value) : Prop := ∃ x, fields cfg = some x ∧ cString x.type = direct

/-- Each function that the loop comes to is readable. -/
def Reads : List (Str × Value) → Prop
  | [] => True
  | m :: members => Readable m.2 ∧ (Accepted m.2 → Reads members)

/-- No name and no field has a NUL, and functions of one name are the same. -/
structure Faithful (members : List (Str × Value)) : Prop where
  names : ∀ m ∈ members, (0 : Byte) ∉ m.1
  strings : ∀ m ∈ members, ∀ x, fields m.2 = some x →
    (0 : Byte) ∉ x.type ∧ (0 : Byte) ∉ x.moduleName ∧ (0 : Byte) ∉ x.functionName
  same : ∀ m ∈ members, ∀ m' ∈ members, m.1 = m'.1 → fields m.2 = fields m'.2

/-- The language has a value, and if that lists functions, all that are read are readable, and
faithful if all are accepted. -/
def Loads (doc : Value) (language : Language) : Prop :=
  ∃ top functions v, doc = .object top ∧ top.lookup (text "functions") = some (.object functions) ∧
    functions.lookup (languageToString language) = some v ∧
    ∀ members, v = .object members →
      Reads members ∧ ((∀ m ∈ members, Accepted m.2) → Faithful members)

/-! ## One function -/

theorem not_mem_cString (s : Str) : (0 : Byte) ∉ cString s := by
  intro h
  simpa using List.mem_takeWhile_imp h

theorem cString_eq {s : Str} (h : (0 : Byte) ∉ s) : cString s = s := by
  rw [cString, List.takeWhile_eq_self_iff]
  intro b hb
  simpa using fun hzero : b = 0 => h (hzero ▸ hb)

theorem findObject_object (members : List (Str × Value)) (name : Str) :
    (Value.object members).findObject name = .ok ((objectAt members name).map .object) := by
  unfold Value.findObject Value.findMember objectAt
  dsimp only [bind, Except.bind]
  split <;> rfl

/-- Reading a string member returns it up to its first NUL, or is no access at all. -/
theorem getText_cases (members : List (Str × Value)) (name : Str) :
    (∃ s, stringAt members name = some s ∧
        (Value.object members).getText name = .ok (cString s)) ∨
      (stringAt members name = none ∧ ∃ e, e.isInvalidJSON = false ∧
        (Value.object members).getText name = .error e) := by
  unfold stringAt Value.getText Value.get Value.findMember
  dsimp only [bind, Except.bind]
  cases hlookup : members.lookup name with
  | none => exact Or.inr ⟨rfl, _, rfl, rfl⟩
  | some v =>
    cases v with
    | string s => exact Or.inl ⟨s, rfl, rfl⟩
    | _ => exact Or.inr ⟨rfl, _, rfl, rfl⟩

/-- What comes of reading a function: the access that fails, the exception, or the function. -/
inductive Parsed (fname : Str) (cfg : Value) : Except Failure Function → Prop where
  | faulty (e : Failure) : ¬ Readable cfg → e.isInvalidJSON = false → Parsed fname cfg (.error e)
  | rejected (what : Str) : Readable cfg → ¬ Accepted cfg →
      Parsed fname cfg (.error (.invalidJSON what))
  | accepted (x : Fields) : Readable cfg → fields cfg = some x → cString x.type = direct →
      Parsed fname cfg (.ok ⟨⟨fname⟩, cString x.moduleName, cString x.functionName⟩)

theorem fields_object (members : List (Str × Value)) : fields (.object members) = do
    let type ← stringAt (← objectAt members (text "trigger")) (text "type")
    let code ← objectAt members (text "code")
    return ⟨type, ← stringAt code (text "module"), ← stringAt code (text "function")⟩ := rfl

theorem readable_object {members : List (Str × Value)} :
    Readable (.object members) ↔
      ∀ trigger, objectAt members (text "trigger") = some trigger →
        ∃ type, stringAt trigger (text "type") = some type ∧
          (cString type = direct → ∀ code, objectAt members (text "code") = some code →
            (∃ s, stringAt code (text "module") = some s) ∧
              ∃ s, stringAt code (text "function") = some s) := by
  simp [Readable]

/-- What follows a direct trigger. -/
theorem parseCode_cases (fname : Str) {members trigger : List (Str × Value)} {type : Str}
    (htrigger : objectAt members (text "trigger") = some trigger)
    (htype : stringAt trigger (text "type") = some type) (hdirect : cString type = direct) :
    Parsed fname (.object members)
      (match (objectAt members (text "code")).map Value.object with
      | none => throw (invalid "Could not parse code configuration for " fname)
      | some code => do
        let moduleName ← code.getText (text "module")
        let functionName ← code.getText (text "function")
        return ⟨⟨fname⟩, moduleName, functionName⟩) := by
  cases hcode : objectAt members (text "code") with
  | none =>
    refine .rejected _ ?_ ?_
    · simp [readable_object, htrigger, htype, hcode]
    · simp [Accepted, fields_object, htrigger, hcode]
  | some code =>
    rcases getText_cases code (text "module") with ⟨m, hm, hget⟩ | ⟨hm, e, he, hget⟩
    · rcases getText_cases code (text "function") with ⟨f, hf, hget'⟩ | ⟨hf, e, he, hget'⟩
      · simp only [Option.map_some, bind, Except.bind, hget, hget']
        refine .accepted ⟨type, m, f⟩ ?_ ?_ hdirect
        · simp [readable_object, htrigger, htype, hcode, hm, hf]
        · simp [fields_object, htrigger, htype, hcode, hm, hf]
      · simp only [Option.map_some, bind, Except.bind, hget, hget']
        refine .faulty e ?_ he
        simp [readable_object, htrigger, htype, hdirect, hcode, hf]
    · simp only [Option.map_some, bind, Except.bind, hget]
      refine .faulty e ?_ he
      simp [readable_object, htrigger, htype, hdirect, hcode, hm]

/-- The cases follow the order of the accesses. -/
theorem parseFunction_cases (fname : Str) (cfg : Value) :
    Parsed fname cfg (parseFunction fname cfg) := by
  cases hcfg : cfg with
  | object members =>
    unfold parseFunction Trigger.parse
    rw [findObject_object, findObject_object]
    cases htrigger : objectAt members (text "trigger") with
    | none =>
      refine .rejected _ ?_ ?_
      · simp [readable_object, htrigger]
      · simp [Accepted, fields_object, htrigger]
    | some trigger =>
      rcases getText_cases trigger (text "type") with ⟨type, htype, hget⟩ | ⟨htype, e, he, hget⟩
      · simp only [Option.map_some, bind, Except.bind, hget]
        by_cases hdirect : cString type = direct
        · rw [if_pos hdirect]
          exact parseCode_cases fname htrigger htype hdirect
        · rw [if_neg hdirect]
          refine .rejected _ ?_ ?_
          · simp [readable_object, htrigger, htype, hdirect]
          · rintro ⟨x, hx, hxdirect⟩
            simp only [fields_object, htrigger, htype, Option.bind_eq_bind, Option.bind_some,
              Option.bind_eq_some_iff] at hx
            rcases hx with ⟨code, -, moduleName, -, functionName, -, hx⟩
            obtain rfl := Option.some.inj hx
            exact hdirect hxdirect
      · simp only [Option.map_some, bind, Except.bind, hget]
        refine .faulty e ?_ he
        simp [readable_object, htrigger, htype]
  | _ =>
    refine .faulty .notObject ?_ rfl
    rintro ⟨members, ⟨⟩, -⟩

/-! ## All functions -/

/-- What a function adds to the map. -/
def entry (m : Str × Value) : Option (Str × Function) :=
  (fields m.2).map fun x =>
    (cString m.1, ⟨⟨cString m.1⟩, cString x.moduleName, cString x.functionName⟩)

/-- What comes of the loop: the first function that cannot be read or is rejected ends it. -/
inductive Added (t : Functions) (members : List (Str × Value)) :
    Except Failure Functions → Prop where
  | faulty (e : Failure) : ¬ Reads members → e.isInvalidJSON = false → Added t members (.error e)
  | rejected (what : Str) : Reads members → ¬ (∀ m ∈ members, Accepted m.2) →
      Added t members (.error (.invalidJSON what))
  | added : Reads members → (∀ m ∈ members, Accepted m.2) →
      Added t members (.ok fun name => (t name).or ((members.filterMap entry).lookup name))

/-- Entries are found in the order in which they came. -/
theorem emplace_or (t : Functions) (k : Str) (f : Function) (l : List (Str × Function)) :
    (fun name => ((t.emplace k f) name).or (l.lookup name)) =
      fun name => (t name).or (((k, f) :: l).lookup name) := by
  funext name
  rw [Functions.emplace, Option.or_assoc, List.lookup_cons]
  by_cases hname : name = k
  · simp [hname]
  · have hbeq : (name == k) = false := by simpa using hname
    simp [hname, hbeq]

theorem addFunction_eq (t : Functions) (m : Str × Value) :
    addFunction t m = (parseFunction (cString m.1) m.2).map (t.emplace (cString m.1)) := by
  unfold addFunction
  dsimp only
  cases parseFunction (cString m.1) m.2 <;> rfl

theorem addFunctions_cases (t : Functions) (members : List (Str × Value)) :
    Added t members (members.foldlM addFunction t) := by
  induction members generalizing t with
  | nil =>
    have hadded : Added t [] (.ok fun name => (t name).or none) := .added trivial (by simp)
    simp only [Option.or_none] at hadded
    exact hadded
  | cons m members ih =>
    rw [List.foldlM_cons, addFunction_eq]
    have hparsed := parseFunction_cases (cString m.1) m.2
    generalize parseFunction (cString m.1) m.2 = r at hparsed
    cases hparsed with
    | faulty e hfaulty he =>
      have hreads : ¬ Reads (m :: members) := fun h => hfaulty h.1
      exact .faulty e hreads he
    | rejected what hread hnot =>
      have hreads : Reads (m :: members) := ⟨hread, fun h => absurd h hnot⟩
      refine .rejected what hreads ?_
      intro hall
      exact hnot (hall m List.mem_cons_self)
    | accepted x hread hx hdirect =>
      have haccepted : Accepted m.2 := ⟨x, hx, hdirect⟩
      have hentry : entry m = some (cString m.1,
          ⟨⟨cString m.1⟩, cString x.moduleName, cString x.functionName⟩) := by
        simp [entry, hx]
      have hrest := ih (t.emplace (cString m.1)
        ⟨⟨cString m.1⟩, cString x.moduleName, cString x.functionName⟩)
      dsimp only [Except.map, bind, Except.bind]
      generalize List.foldlM addFunction _ members = r at hrest
      cases hrest with
      | faulty e hfaulty he =>
        have hreads : ¬ Reads (m :: members) := fun h => hfaulty (h.2 haccepted)
        exact .faulty e hreads he
      | rejected what hreads hnot =>
        have hreads' : Reads (m :: members) := ⟨hread, fun _ => hreads⟩
        refine .rejected what hreads' ?_
        intro hall
        exact hnot fun m' hm' => hall m' (List.mem_cons_of_mem m hm')
      | added hreads hall =>
        have hadded : Added t (m :: members)
            (.ok fun name => (t name).or (((m :: members).filterMap entry).lookup name)) :=
          .added ⟨hread, fun _ => hreads⟩ (List.forall_mem_cons.2 ⟨haccepted, hall⟩)
        rw [List.filterMap_cons_some hentry] at hadded
        rw [emplace_or]
        exact hadded

/-! ## The whole document -/

theorem mem_entries {members : List (Str × Value)} {name : Str} {f : Function} :
    (name, f) ∈ members.filterMap entry ↔ ∃ m ∈ members, ∃ x, fields m.2 = some x ∧
      cString m.1 = name ∧ f = ⟨⟨name⟩, cString x.moduleName, cString x.functionName⟩ := by
  rw [List.mem_filterMap]
  constructor
  · rintro ⟨m, hm, hentry⟩
    rcases Option.map_eq_some_iff.1 hentry with ⟨x, hx, heq⟩
    rw [Prod.mk.injEq] at heq
    rcases heq with ⟨rfl, rfl⟩
    exact ⟨m, hm, x, hx, rfl, rfl⟩
  · rintro ⟨m, hm, x, hx, rfl, rfl⟩
    exact ⟨m, hm, by simp [entry, hx]⟩

theorem mem_of_lookup {l : List (Str × Function)} {name : Str} {f : Function}
    (h : l.lookup name = some f) : (name, f) ∈ l := by
  rcases List.lookup_eq_some_iff.1 h with ⟨l₁, l₂, rfl, -⟩
  simp

theorem described_eq_some {name : Str} {cfg : Value} {f : Function} :
    described name cfg = some f ↔ ∃ x, fields cfg = some x ∧ x.type = direct ∧
      f = ⟨⟨name⟩, x.moduleName, x.functionName⟩ := by
  unfold described
  cases fields cfg with
  | none => simp
  | some x =>
    simp only [Option.bind_eq_bind, Option.bind_some, Option.some.injEq, exists_eq_left']
    split_ifs with hdirect
    · simp [hdirect, eq_comm]
    · simp [hdirect]

/-- The table of functions that are all accepted is the one that is described if and only if
nothing is cut off and no name describes two functions. -/
theorem contains_iff {members : List (Str × Value)} (h : ∀ m ∈ members, Accepted m.2) :
    Functions.Contains (fun name => (members.filterMap entry).lookup name) members ↔
      Faithful members := by
  constructor
  · intro hcontains
    -- each function is found as one that was read, whose strings have no NUL
    have hfound : ∀ m ∈ members, ∃ x, fields m.2 = some x ∧ x.type = direct ∧
        (0 : Byte) ∉ m.1 ∧ (0 : Byte) ∉ x.moduleName ∧ (0 : Byte) ∉ x.functionName ∧
        (members.filterMap entry).lookup m.1 = some ⟨⟨m.1⟩, x.moduleName, x.functionName⟩ := by
      intro m hm
      rcases hcontains.all m hm with ⟨f, hf, hlookup⟩
      rcases described_eq_some.1 hf with ⟨x, hx, hdirect, rfl⟩
      rcases mem_entries.1 (mem_of_lookup hlookup) with ⟨m', hm', x', hx', hname, heq⟩
      rw [Function.mk.injEq] at heq
      refine ⟨x, hx, hdirect, ?_, ?_, ?_, hlookup⟩
      · exact hname ▸ not_mem_cString m'.1
      · exact heq.2.1 ▸ not_mem_cString x'.moduleName
      · exact heq.2.2 ▸ not_mem_cString x'.functionName
    constructor
    · intro m hm
      rcases hfound m hm with ⟨x, -, -, hname, -⟩
      exact hname
    · intro m hm x hx
      rcases hfound m hm with ⟨y, hy, hdirect, -, hmodule, hfunction, -⟩
      obtain rfl := Option.some.inj (hx.symm.trans hy)
      exact ⟨by rw [hdirect]; decide, hmodule, hfunction⟩
    · intro m hm m' hm' hsame
      rcases hfound m hm with ⟨x, hx, hdirect, -, -, -, hlookup⟩
      rcases hfound m' hm' with ⟨x', hx', hdirect', -, -, -, hlookup'⟩
      rw [← hsame] at hlookup'
      have heq := Option.some.inj (hlookup.symm.trans hlookup')
      rw [Function.mk.injEq] at heq
      rcases x with ⟨type, moduleName, functionName⟩
      rcases x' with ⟨type', moduleName', functionName'⟩
      obtain rfl : type = direct := hdirect
      obtain rfl : type' = direct := hdirect'
      obtain rfl : moduleName = moduleName' := heq.2.1
      obtain rfl : functionName = functionName' := heq.2.2
      rw [hx, hx']
  · intro hfaithful
    constructor
    · intro m hm
      rcases h m hm with ⟨x, hx, hdirect⟩
      rcases hfaithful.strings m hm x hx with ⟨htype, hmodule, hfunction⟩
      rw [cString_eq htype] at hdirect
      refine ⟨⟨⟨m.1⟩, x.moduleName, x.functionName⟩, described_eq_some.2 ⟨x, hx, hdirect, rfl⟩, ?_⟩
      have hmem : (m.1, (⟨⟨m.1⟩, x.moduleName, x.functionName⟩ : Function)) ∈
          members.filterMap entry := by
        refine mem_entries.2 ⟨m, hm, x, hx, cString_eq (hfaithful.names m hm), ?_⟩
        rw [cString_eq hmodule, cString_eq hfunction]
      -- the first function of the name is the same
      cases hlookup : (members.filterMap entry).lookup m.1 with
      | none =>
        have hne := List.lookup_eq_none_iff.1 hlookup _ hmem
        simp at hne
      | some f =>
        rcases mem_entries.1 (mem_of_lookup hlookup) with ⟨m', hm', x', hx', hname, rfl⟩
        rw [cString_eq (hfaithful.names m' hm')] at hname
        have hfields := hfaithful.same m' hm' m hm hname
        obtain rfl : x' = x := Option.some.inj (hx'.symm.trans (hfields.trans hx))
        rw [cString_eq hmodule, cString_eq hfunction]
    · intro name f hlookup
      rcases mem_entries.1 (mem_of_lookup hlookup) with ⟨m, hm, -, -, hname, -⟩
      rw [cString_eq (hfaithful.names m hm)] at hname
      exact ⟨m, hm, hname⟩

/-- The table of a load that reaches the functions starts empty. -/
theorem addFunctions_clean_iff {doc : Value} {language : Language} {members : List (Str × Value)}
    (hlisted : listed doc language = some members) :
    Clean doc language (members.foldlM addFunction fun _ => none) ↔
      Reads members ∧ ((∀ m ∈ members, Accepted m.2) → Faithful members) := by
  have hadded := addFunctions_cases (fun _ => none) members
  generalize List.foldlM addFunction _ members = r at hadded
  cases hadded with
  | faulty e hfaulty he => simp [Clean, hfaulty, he]
  | rejected what hreads hnot =>
    have hclean : Clean doc language (.error (.invalidJSON what)) := rfl
    exact ⟨fun _ => ⟨hreads, fun hall => absurd hall hnot⟩, fun _ => hclean⟩
  | added hreads hall =>
    simp only [Option.none_or, Clean, hlisted, Option.some.injEq, exists_eq_left',
      contains_iff hall]
    exact ⟨fun h => ⟨hreads, fun _ => h⟩, fun h => h.2 hall⟩

theorem get_object {members : List (Str × Value)} {name : Str} {v : Value}
    (h : members.lookup name = some v) : (Value.object members).get name = .ok v := by
  unfold Value.get Value.findMember
  simp only [h, bind, Except.bind]
  rfl

/-- The loader comes as far as the value of the language. -/
theorem initializeFunctions_of_lookup {top functions : List (Str × Value)} {language : Language}
    {v : Value} (hfunctions : top.lookup (text "functions") = some (.object functions))
    (hv : functions.lookup (languageToString language) = some v) :
    initializeFunctions (.object top) language = readLanguage language v := by
  unfold initializeFunctions
  rw [get_object hfunctions]
  simp only [Value.findMember, hv, Value.deref, bind, Except.bind]

/-- Without one, it ends with an access that fails. -/
theorem initializeFunctions_of_missing {doc : Value} {language : Language}
    (h : ¬ ∃ top functions v, doc = .object top ∧
      top.lookup (text "functions") = some (.object functions) ∧
      functions.lookup (languageToString language) = some v) :
    ∃ e, e.isInvalidJSON = false ∧ initializeFunctions doc language = .error e := by
  unfold initializeFunctions
  cases doc with
  | object top =>
    cases hfunctions : top.lookup (text "functions") with
    | none =>
      refine ⟨.missingMember, rfl, ?_⟩
      simp only [Value.get, Value.findMember, hfunctions, bind, Except.bind]
      rfl
    | some v =>
      rw [get_object hfunctions]
      cases v with
      | object functions =>
        have hnone : functions.lookup (languageToString language) = none := by
          rw [Option.eq_none_iff_forall_ne_some]
          intro v hv
          exact h ⟨top, functions, v, rfl, hfunctions, hv⟩
        refine ⟨.endIterator, rfl, ?_⟩
        simp only [Value.findMember, hnone, Value.deref, bind, Except.bind]
      | _ => exact ⟨.notObject, rfl, rfl⟩
  | _ => exact ⟨.notObject, rfl, rfl⟩

/-- An access that fails is no clean end. -/
theorem not_clean_error {doc : Value} {language : Language} {e : Failure}
    (h : e.isInvalidJSON = false) : ¬ Clean doc language (.error e) := by
  simp [Clean, h]

/-- A load raises `InvalidJSON` or has the functions that are listed if and only if the
document has the language, and its functions are readable and faithful. -/
theorem initializeFunctions_clean_iff (doc : Value) (language : Language) :
    Clean doc language (initializeFunctions doc language) ↔ Loads doc language := by
  by_cases hlanguage : ∃ top functions v, doc = .object top ∧
      top.lookup (text "functions") = some (.object functions) ∧
      functions.lookup (languageToString language) = some v
  · rcases hlanguage with ⟨top, functions, v, rfl, hfunctions, hv⟩
    have hloads : Loads (.object top) language ↔ ∀ members, v = .object members →
        Reads members ∧ ((∀ m ∈ members, Accepted m.2) → Faithful members) := by
      simp [Loads, hfunctions, hv]
    rw [hloads, initializeFunctions_of_lookup hfunctions hv]
    cases v with
    | object members =>
      have hlisted : listed (.object top) language = some members := by
        simp [listed, objectAt, hfunctions, hv]
      rw [readLanguage, addFunctions_clean_iff hlisted]
      constructor
      · rintro h members' ⟨⟩
        exact h
      · intro h
        exact h members rfl
    | _ =>
      constructor
      · rintro - members ⟨⟩
      · intro _
        rfl
  · have hloads : ¬ Loads doc language := by
      rintro ⟨top, functions, v, hdoc, hfunctions, hv, -⟩
      exact hlanguage ⟨top, functions, v, hdoc, hfunctions, hv⟩
    rcases initializeFunctions_of_missing hlanguage with ⟨e, he, hfails⟩
    rw [hfails]
    exact ⟨fun h => absurd h (not_clean_error he), fun h => absurd h hloads⟩

/-- `Functions::get_trigger`, by its type. -/
def Functions.getTrigger (t : Functions) (name : Str) : Option Process.Trigger :=
  (t name).map fun _ => .direct

/-- A controller that starts from a document knows the functions that it lists, and no other. -/
theorem controller_knows_iff {doc : Value} {language : Language} {t : Functions}
    {members : List (Str × Value)} (hload : initializeFunctions doc language = .ok t)
    (hclean : Clean doc language (initializeFunctions doc language))
    (hlisted : listed doc language = some members) (processId : Str) (functionWorkers : ℕ)
    (name : Str) :
    (Process.Controller.new processId functionWorkers t.getTrigger).workQueue.functions name =
      some .direct ↔ ∃ m ∈ members, m.1 = name := by
  rw [hload] at hclean
  rcases hclean with ⟨members', hlisted', hcontains⟩
  obtain rfl := Option.some.inj (hlisted.symm.trans hlisted')
  show (t name).map (fun _ => Process.Trigger.direct) = some .direct ↔ _
  constructor
  · intro hknown
    rcases Option.map_eq_some_iff.1 hknown with ⟨f, hf, -⟩
    exact hcontains.only name f hf
  · rintro ⟨m, hm, rfl⟩
    rcases hcontains.all m hm with ⟨f, -, hf⟩
    rw [hf]
    rfl

/-- A document without the language: the loader reads through the end of its functions. -/
theorem missing_language_read : ¬ ∀ (doc : Value) (language : Language),
    Clean doc language (initializeFunctions doc language) := by
  intro h
  have hnone : ¬ ∃ top functions v,
      Value.object [(text "functions", .object [])] = .object top ∧
        top.lookup (text "functions") = some (.object functions) ∧
        functions.lookup (languageToString .cpp) = some v := by
    rintro ⟨top, functions, v, ⟨⟩, hfunctions, hv⟩
    simp only [List.lookup_cons, beq_self_eq_true, Option.some.injEq, Value.object.injEq]
      at hfunctions
    subst hfunctions
    cases hv
  rcases initializeFunctions_of_missing hnone with ⟨e, he, hfails⟩
  have hclean := h (.object [(text "functions", .object [])]) .cpp
  rw [hfails] at hclean
  exact not_clean_error he hclean

end Praas.Runtime.Configuration
