import ClassCoverage.Text

/-! A plain reader of tagged documents. It goes through a document one character at a time:
attribute values are what stands between double quotes, and the five predefined entities are undone.
What is not well formed is refused. -/
namespace ClassCoverage.Report

/-- An element with the text and the elements it holds. -/
structure Element where
  name : String
  attributes : List (String × String)
  text : String
  children : List Element

namespace Element

theorem eta (element : Element) :
    ⟨element.name, element.attributes, element.text, element.children⟩ = element := by
  cases element
  rfl

def tag (name : String) (attributes : List (String × String)) :
    Element := ⟨name, attributes, "", []⟩

def add (child parent : Element) : Element := { parent with children := parent.children ++ [child] }

def write (element : Element) (char : Char) :
    Element := { element with text := element.text.push char }

end Element

namespace TagReader

/-- Blanks inside `layout` elements only set their children apart; `isVoid` elements have no end
tag. -/
structure Dialect where
  layout : String → Bool
  isVoid : String → Bool

/-- Where in a document the reader is. A tag or text that is not complete yet is kept as far as it
was read. -/
inductive Mode where
  | content
  | entity (name : List Char)
  | opened
  | naming (name : List Char)
  | within (tag : Element)
  | key (tag : Element) (key : List Char)
  | assigned (tag : Element) (key : List Char)
  | value (tag : Element) (key value : List Char)
  | valueEntity (tag : Element) (key value name : List Char)
  | ending (tag : Element)
  | closing (name : List Char)
  | skipped

/-- The element that is being read, and those around it from the inside out. -/
structure State where
  mode : Mode
  inner : Element
  outer : List Element

def isBlank (char : Char) : Bool := char == ' ' || char == '\n' || char == '\t' || char == '\r'

/-- Characters that end the name of an element. -/
def endsName (char : Char) : Bool := isBlank char || char == '>' || char == '/' || char == '?'

def character? : List Char → Option Char
  | ['a', 'm', 'p'] => some '&'
  | ['l', 't'] => some '<'
  | ['g', 't'] => some '>'
  | ['q', 'u', 'o', 't'] => some '"'
  | ['a', 'p', 'o', 's'] => some '\''
  | _ => none

namespace State
variable (dialect : Dialect) (state : State)

def open_ (tag : Element) : State :=
  if dialect.isVoid tag.name then { state with mode := .content, inner := tag.add state.inner }
  else ⟨.content, tag, state.inner :: state.outer⟩

/-- An end tag belongs to the innermost element. -/
def close (name : List Char) : Option State :=
  match state.outer with
  | parent :: outer =>
    if state.inner.name = String.ofList name then some ⟨.content, state.inner.add parent, outer⟩
      else none
  | [] => none

def stepContent (char : Char) : Option State :=
  if char = '<' then some { state with mode := .opened }
  else if dialect.layout state.inner.name then if isBlank char then some state else none
  else if char = '&' then some { state with mode := .entity [] }
  else some { state with inner := state.inner.write char }

def stepTag (tag : Element) (char : Char) : Option State :=
  if char = '>' then some (state.open_ dialect tag)
  else if char = '/' || char = '?' then some { state with mode := .ending tag }
  else if isBlank char then some { state with mode := .within tag }
  else some { state with mode := .key tag [char] }

def stepValue (tag : Element) (key value : List Char) (char : Char) : Option State :=
  if char = '"' then
    let pair := (String.ofList key, String.ofList value)
    some { state with mode := .within { tag with attributes := tag.attributes ++ [pair] } }
  else if char = '<' then none
  else if char = '&' then some { state with mode := .valueEntity tag key value [] }
  else some { state with mode := .value tag key (value ++ [char]) }

/-- Reads one character. -/
def step (char : Char) : Option State :=
  match state.mode with
  | .content => state.stepContent dialect char
  | .entity name =>
    if char = ';' then
      (character? name).map fun char =>
        { state with mode := .content, inner := state.inner.write char }
    else some { state with mode := .entity (name ++ [char]) }
  | .opened =>
    if char = '/' then some { state with mode := .closing [] }
    else if char = '!' then some { state with mode := .skipped }
    else some { state with mode := .naming [char] }
  | .naming name =>
    if endsName char then state.stepTag dialect (.tag (String.ofList name) []) char
    else some { state with mode := .naming (name ++ [char]) }
  | .within tag => state.stepTag dialect tag char
  | .key tag key =>
    if char = '=' then some { state with mode := .assigned tag key }
    else some { state with mode := .key tag (key ++ [char]) }
  | .assigned tag key => if char = '"' then some { state with mode := .value tag key [] } else none
  | .value tag key value => state.stepValue tag key value char
  | .valueEntity tag key value name =>
    if char = ';' then
      (character? name).map fun char => { state with mode := .value tag key (value ++ [char]) }
    else some { state with mode := .valueEntity tag key value (name ++ [char]) }
  | .ending tag =>
    if char = '>' then some { state with mode := .content, inner := tag.add state.inner } else none
  | .closing name =>
    if char = '>' then state.close name else some { state with mode := .closing (name ++ [char]) }
  | .skipped => if char = '>' then some { state with mode := .content } else some state

end State

def run (dialect : Dialect) (state : State) (text : List Char) : Option State :=
  text.foldlM (State.step dialect) state

/-- The elements of a document. The document is read like the content of an element without a
name. -/
def read (dialect : Dialect) (document : String) : Option (List Element) :=
  match run dialect ⟨.content, .tag "" [], []⟩ document.toList with
  | some ⟨.content, whole, []⟩ => some whole.children
  | _ => none

section
variable {dialect : Dialect}

def Leads (dialect : Dialect) (state : State) (text : List Char) (state' : State) : Prop :=
  run dialect state text = some state'

theorem Leads.nil (state : State) : Leads dialect state [] state := rfl

theorem Leads.cons {state next state' : State} {char : Char} {text : List Char}
    (first : state.step dialect char = some next) (later : Leads dialect next text state') :
    Leads dialect state (char :: text) state' := by
  unfold Leads run
  rw [List.foldlM_cons, first]
  exact later

theorem Leads.one {state next : State} {char : Char} (first : state.step dialect char = some next) :
    Leads dialect state [char] next :=
  .cons first (.nil next)

theorem Leads.append {state middle state' : State} {front back : List Char}
    (first : Leads dialect state front middle) (later : Leads dialect middle back state') :
    Leads dialect state (front ++ back) state' := by
  unfold Leads run at first later ⊢
  rw [List.foldlM_append, first]
  exact later

theorem Leads.split {state state' : State} {front back : List Char}
    (leads : Leads dialect state (front ++ back) state') :
    ∃ middle, Leads dialect state front middle ∧ Leads dialect middle back state' := by
  unfold Leads run at leads
  rw [List.foldlM_append] at leads
  exact Option.bind_eq_some_iff.mp leads

theorem Leads.unique {state one other : State} {text : List Char}
    (first : Leads dialect state text one) (second : Leads dialect state text other) :
    one = other :=
  Option.some.inj (first.symm.trans second)

/-- A mode that collects what it reads collects a text in which no character ends it. -/
theorem leads_collected {inner : Element} {outer : List Element}
    (mode : List Char → Mode) {text : List Char}
    (goesOn : ∀ char ∈ text, ∀ read, (⟨mode read, inner, outer⟩ : State).step dialect char =
      some ⟨mode (read ++ [char]), inner, outer⟩) (read : List Char) :
    Leads dialect ⟨mode read, inner, outer⟩ text ⟨mode (read ++ text), inner, outer⟩ := by
  induction text generalizing read with
  | nil =>
    rw [List.append_nil]
    exact .nil _
  | cons char text ih =>
    rw [List.forall_mem_cons] at goesOn
    have later := ih goesOn.2 (read ++ [char])
    rw [List.append_assoc, List.singleton_append] at later
    exact .cons (goesOn.1 read) later

/-- How a character may be written: as itself, if it has no meaning of its own, or as an entity. -/
inductive Escaped (char : Char) : List Char → Prop
  | plain (notTag : char ≠ '<') (notEntity : char ≠ '&') (notQuote : char ≠
    '"') : Escaped char [char]
  | entity (name : List Char) (known : character? name = some char) (whole : ';' ∉ name) :
      Escaped char ('&' :: (name ++ [';']))

private theorem leads_entity {inner : Element} {outer : List Element} {read name : List Char}
    (whole : ';' ∉ name) :
    Leads dialect ⟨.entity read, inner, outer⟩ name ⟨.entity (read ++ name), inner, outer⟩ := by
  refine leads_collected .entity (fun char member read => ?_) read
  have goesOn : char ≠ ';' := fun same => whole (same ▸ member)
  simp [State.step, goesOn]

private theorem leads_valueEntity {inner : Element} {outer : List Element} {tag : Element}
    {key value read name : List Char} (whole : ';' ∉ name) :
    Leads dialect ⟨.valueEntity tag key value read, inner, outer⟩ name
      ⟨.valueEntity tag key value (read ++ name), inner, outer⟩ := by
  refine leads_collected (.valueEntity tag key value) (fun char member read => ?_) read
  have goesOn : char ≠ ';' := fun same => whole (same ▸ member)
  simp [State.step, goesOn]

variable {image : Char → List Char}

/-- A character of a text is read as itself. -/
theorem leads_written {inner : Element} {outer : List Element} {char : Char} {written : List Char}
    (escaped : Escaped char written) (shown : dialect.layout inner.name = false) :
    Leads dialect ⟨.content, inner, outer⟩ written ⟨.content, inner.write char, outer⟩ := by
  cases escaped with
  | plain notTag notEntity =>
    exact .one (by simp [State.step, State.stepContent, notTag, notEntity, shown])
  | entity name known whole =>
    have opens : (⟨.content, inner, outer⟩ : State).step dialect '&' =
        some ⟨.entity [], inner, outer⟩ := by
      simp [State.step, State.stepContent, shown]
    exact .cons opens (.append (leads_entity whole) (.one (by simp [State.step, known])))

private theorem leads_valueWritten {inner : Element} {outer : List Element} {tag : Element}
    {key value : List Char} {char : Char} {written : List Char} (escaped : Escaped char written) :
    Leads dialect ⟨.value tag key value, inner,
    outer⟩ written ⟨.value tag key (value ++ [char]), inner, outer⟩ := by
  cases escaped with
  | plain notTag notEntity notQuote =>
    exact .one (by simp [State.step, State.stepValue, notTag, notEntity, notQuote])
  | entity name known whole =>
    have opens : (⟨.value tag key value, inner, outer⟩ : State).step dialect '&' =
        some ⟨.valueEntity tag key value [], inner, outer⟩ := by
      simp [State.step, State.stepValue]
    exact .cons opens (.append (leads_valueEntity whole) (.one (by simp [State.step, known])))

variable {image : Char → List Char} (escaped : ∀ char, Escaped char (image char))
include escaped

private theorem leads_text (inner : Element) (outer : List Element)
    (shown : dialect.layout inner.name = false) (text : List Char) :
    Leads dialect ⟨.content, inner, outer⟩ (text.flatMap image)
      ⟨.content, { inner with text := inner.text ++ String.ofList text }, outer⟩ := by
  induction text generalizing inner with
  | nil =>
    rw [String.ofList_nil, String.append_empty, Element.eta]
    exact .nil _
  | cons char text ih =>
    have later := ih (inner.write char) shown
    have same : inner.text.push char ++ String.ofList text = inner.text ++
        String.ofList (char :: text) := by
      apply String.toList_inj.mp
      simp
    simp only [Element.write, same] at later
    rw [List.flatMap_cons]
    exact .append (leads_written (escaped char) shown) later

private theorem leads_value {inner : Element} {outer : List Element} {tag : Element}
    {key value : List Char} (text : List Char) :
    Leads dialect ⟨.value tag key value, inner, outer⟩ (text.flatMap image)
      ⟨.value tag key (value ++ text), inner, outer⟩ := by
  induction text generalizing value with
  | nil =>
    rw [List.append_nil]
    exact .nil _
  | cons char text ih =>
    have later := @ih (value ++ [char])
    rw [List.append_assoc, List.singleton_append] at later
    rw [List.flatMap_cons]
    exact .append (leads_valueWritten (escaped char)) later

omit escaped

/-- Names of elements, which end before a blank, a slash, a question mark or a bracket. -/
def IsTagName (name : String) : Prop :=
  match name.toList with
  | [] => False
  | first :: rest => first ≠ '/' ∧ first ≠ '!' ∧ first ≠ '>' ∧ ∀ char ∈ rest, endsName char = false

/-- Names of attributes, which end before an equals sign. -/
def IsKey (key : String) : Prop :=
  match key.toList with
  | [] => False
  | first :: rest => endsName first = false ∧ first ≠ '=' ∧ '=' ∉ rest

instance (name : String) : Decidable (IsTagName name) := by
  unfold IsTagName
  split <;> infer_instance

instance (key : String) : Decidable (IsKey key) := by
  unfold IsKey
  split <;> infer_instance

theorem isKey_of_names {attributes : List (String × String)} (names : List String)
    (spelled : attributes.map Prod.fst = names) (each : ∀ name ∈ names, IsKey name) :
    ∀ pair ∈ attributes, IsKey pair.1 := by
  subst spelled
  exact fun pair member => each pair.1 (List.mem_map_of_mem member)

def attributeChars (image : Char → List Char) (pair : String × String) : List Char :=
  ' ' :: (pair.1.toList ++ ('=' :: '"' :: (pair.2.toList.flatMap image ++ ['"'])))

theorem toList_attributes {attributeText : String × String → String}
    (written : ∀ pair, (attributeText pair).toList = attributeChars image pair)
    (attributes : List (String × String)) :
    (String.join (attributes.map attributeText)).toList =
      attributes.flatMap (attributeChars image) := by
  rw [String.toList_join, List.flatMap_map, funext written]

private theorem leads_naming {inner : Element} {outer : List Element} {read name : List Char}
    (whole : ∀ char ∈ name, endsName char = false) :
    Leads dialect ⟨.naming read, inner, outer⟩ name ⟨.naming (read ++ name), inner, outer⟩ := by
  refine leads_collected .naming (fun char member read => ?_) read
  simp [State.step, whole char member]

private theorem leads_opened {inner : Element} {outer : List Element} {name : String}
    (named : IsTagName name) :
    Leads dialect ⟨.opened, inner, outer⟩ name.toList ⟨.naming name.toList, inner, outer⟩ := by
  unfold IsTagName at named
  cases spelled : name.toList with
  | nil => simp [spelled] at named
  | cons first rest =>
    simp only [spelled] at named
    have begins : (⟨.opened, inner, outer⟩ : State).step dialect first =
        some ⟨.naming [first], inner, outer⟩ := by
      simp [State.step, named.1, named.2.1]
    exact .cons begins (leads_naming named.2.2.2)

private theorem leads_key {inner : Element} {outer : List Element} {tag : Element}
    {read key : List Char} (whole : '=' ∉ key) :
    Leads dialect ⟨.key tag read, inner, outer⟩ key ⟨.key tag (read ++ key), inner, outer⟩ := by
  refine leads_collected (.key tag) (fun char member read => ?_) read
  have goesOn : char ≠ '=' := fun same => whole (same ▸ member)
  simp [State.step, goesOn]

private theorem leads_attribute {inner : Element} {outer : List Element} {tag : Element}
    {pair : String × String} (escaped : ∀ char, Escaped char (image char)) (named : IsKey pair.1) :
    Leads dialect ⟨.within tag, inner, outer⟩ (attributeChars image pair)
      ⟨.within { tag with attributes := tag.attributes ++ [pair] }, inner, outer⟩ := by
  unfold IsKey at named
  cases spelled : pair.1.toList with
  | nil => simp [spelled] at named
  | cons first rest =>
    simp only [spelled] at named
    obtain ⟨starts, -, whole⟩ := named
    simp only [endsName, Bool.or_eq_false_iff, beq_eq_false_iff_ne] at starts
    have blank : (⟨.within tag, inner, outer⟩ : State).step dialect ' ' =
        some ⟨.within tag, inner, outer⟩ := rfl
    have begins : (⟨.within tag, inner, outer⟩ : State).step dialect first =
        some ⟨.key tag [first], inner, outer⟩ := by
      simp [State.step, State.stepTag, starts]
    have assigned : (⟨.key tag ([first] ++ rest), inner, outer⟩ : State).step dialect '=' =
        some ⟨.assigned tag pair.1.toList, inner, outer⟩ := by
      simp [State.step, spelled]
    have quoted : (⟨.assigned tag pair.1.toList, inner, outer⟩ : State).step dialect '"' =
        some ⟨.value tag pair.1.toList [], inner, outer⟩ := rfl
    have ends : (⟨.value tag pair.1.toList ([] ++ pair.2.toList), inner,
        outer⟩ : State).step dialect '"' =
        some ⟨.within { tag with attributes := tag.attributes ++ [pair] }, inner, outer⟩ := by
      simp [State.step, State.stepValue]
    unfold attributeChars
    rw [spelled]
    exact .cons blank (.cons begins (.append (leads_key whole)
      (.cons assigned (.cons quoted (.append (leads_value escaped pair.2.toList) (.one ends))))))

private theorem leads_attributes {inner : Element} {outer : List Element} (tag : Element)
    {attributes : List (String × String)} (escaped : ∀ char, Escaped char (image char))
    (named : ∀ pair ∈ attributes, IsKey pair.1) :
    Leads dialect ⟨.within tag, inner, outer⟩ (attributes.flatMap (attributeChars image))
      ⟨.within { tag with attributes := tag.attributes ++ attributes }, inner, outer⟩ := by
  induction attributes generalizing tag with
  | nil =>
    cases tag
    simpa using Leads.nil _
  | cons pair attributes ih =>
    rw [List.forall_mem_cons] at named
    have later := ih { tag with attributes := tag.attributes ++ [pair] } named.2
    rw [List.append_assoc, List.singleton_append] at later
    rw [List.flatMap_cons]
    exact .append (leads_attribute escaped named.1) later

def startChars (image : Char → List Char) (name : String)
    (attributes : List (String × String)) : List Char :=
  '<' :: (name.toList ++ (attributes.flatMap (attributeChars image) ++ ['>']))

def wholeChars (image : Char → List Char) (name : String)
    (attributes : List (String × String)) : List Char :=
  '<' :: (name.toList ++ (attributes.flatMap (attributeChars image) ++ ['/', '>']))

def declarationChars (image : Char → List Char) (name : String)
    (attributes : List (String × String)) : List Char :=
  '<' :: (name.toList ++ (attributes.flatMap (attributeChars image) ++ ['?', '>']))

def finishChars (name : String) : List Char := '<' :: '/' :: (name.toList ++ ['>'])

private theorem leads_within {inner : Element} {outer : List Element} {name : String} {char : Char}
    {rest : List Char} {state' : State} (ends : endsName char = true)
    (leads : Leads dialect ⟨.within (.tag name []), inner, outer⟩ (char :: rest) state') :
    Leads dialect ⟨.naming name.toList, inner, outer⟩ (char :: rest) state' := by
  have same : (⟨.naming name.toList, inner, outer⟩ : State).step dialect char =
      (⟨.within (.tag name []), inner, outer⟩ : State).step dialect char := by
    simp [State.step, State.stepTag, State.open_, ends]
  unfold Leads run at leads ⊢
  rw [List.foldlM_cons, same]
  exact leads

/-- The name and the attributes of an element, up to a character that ends its tag. -/
theorem leads_head {inner : Element} {outer : List Element} {name : String}
    {attributes : List (String × String)} {char : Char} {rest : List Char} {state' : State}
    (escaped : ∀ char, Escaped char (image char)) (named : IsTagName name)
    (keys : ∀ pair ∈ attributes, IsKey pair.1) (ends : endsName char = true)
    (leads : Leads dialect ⟨.within (.tag name attributes), inner, outer⟩ (char :: rest) state') :
    Leads dialect ⟨.content, inner, outer⟩
      ('<' :: (name.toList ++ (attributes.flatMap (attributeChars image) ++ char :: rest)))
        state' := by
  have opens : (⟨.content, inner, outer⟩ : State).step dialect '<' = some ⟨.opened, inner, outer⟩ :=
    rfl
  refine .cons opens (.append (leads_opened named) ?_)
  cases attributes with
  | nil => exact leads_within ends leads
  | cons pair attributes =>
    have whole := Leads.append (leads_attributes (.tag name []) escaped keys) leads
    rw [List.flatMap_cons, attributeChars] at whole ⊢
    exact leads_within rfl whole

theorem leads_start {inner : Element} {outer : List Element} {name : String}
    {attributes : List (String × String)} (escaped : ∀ char, Escaped char (image char))
    (named : IsTagName name) (keys : ∀ pair ∈ attributes, IsKey pair.1) :
    Leads dialect ⟨.content, inner, outer⟩ (startChars image name attributes)
      (State.open_ dialect ⟨.content, inner, outer⟩ (.tag name attributes)) :=
  leads_head escaped named keys rfl (.one rfl)

private theorem leads_whole {inner : Element} {outer : List Element} {name : String}
    {attributes : List (String × String)} (escaped : ∀ char, Escaped char (image char))
    (named : IsTagName name) (keys : ∀ pair ∈ attributes, IsKey pair.1) :
    Leads dialect ⟨.content, inner, outer⟩ (wholeChars image name attributes)
      ⟨.content, (Element.tag name attributes).add inner, outer⟩ :=
  leads_head escaped named keys rfl (.cons rfl (.one rfl))

theorem leads_closing {inner : Element} {outer : List Element} {read name : List Char}
    (whole : '>' ∉ name) :
    Leads dialect ⟨.closing read, inner, outer⟩ name ⟨.closing (read ++ name), inner, outer⟩ := by
  refine leads_collected .closing (fun char member read => ?_) read
  have goesOn : char ≠ '>' := fun same => whole (same ▸ member)
  simp [State.step, goesOn]

theorem IsTagName.closes {name : String} (named : IsTagName name) : '>' ∉ name.toList := by
  unfold IsTagName at named
  cases spelled : name.toList with
  | nil => simp [spelled] at named
  | cons first rest =>
    simp only [spelled] at named
    obtain ⟨-, -, starts, whole⟩ := named
    intro member
    rcases List.mem_cons.mp member with same | later
    · exact starts same.symm
    · exact absurd (whole '>' later) (by decide)

private theorem leads_finish {inner parent : Element} {outer : List Element}
    (named : IsTagName inner.name) :
    Leads dialect ⟨.content, inner, parent :: outer⟩ (finishChars inner.name)
      ⟨.content, inner.add parent, outer⟩ := by
  have opens : (⟨.content, inner, parent :: outer⟩ : State).step dialect '<' =
      some ⟨.opened, inner, parent :: outer⟩ := rfl
  have slash : (⟨.opened, inner, parent :: outer⟩ : State).step dialect '/' =
      some ⟨.closing [], inner, parent :: outer⟩ := rfl
  have ends : (⟨.closing ([] ++ inner.name.toList), inner,
      parent :: outer⟩ : State).step dialect '>' =
      some ⟨.content, inner.add parent, outer⟩ := by
    simp [State.step, State.close]
  exact .cons opens (.cons slash (.append (leads_closing named.closes) (.one ends)))

/-- Wherever it stands in an element, if that is a layout element or not, the text is read as this
text and these children, one after the other. -/
def Reads (dialect : Dialect) (layout : Bool) (chars : List Char) (text : String)
    (children : List Element) : Prop :=
  ∀ (inner : Element) (outer : List Element), dialect.layout inner.name = layout →
    Leads dialect ⟨.content, inner, outer⟩ chars
      ⟨.content, ⟨inner.name, inner.attributes, inner.text ++ text,
      inner.children ++ children⟩, outer⟩

namespace Reads
variable {layout : Bool}

theorem nil : Reads dialect layout [] "" [] := by
  intro inner outer _
  rw [String.append_empty, List.append_nil, Element.eta]
  exact .nil _

theorem append {front back : List Char} {text text' : String} {children children' : List Element}
    (first : Reads dialect layout front text children)
    (later : Reads dialect layout back text' children') :
    Reads dialect layout (front ++ back) (text ++ text') (children ++ children') := by
  intro inner outer own
  have second := later ⟨inner.name, inner.attributes, inner.text ++ text,
    inner.children ++ children⟩ outer own
  simp only [String.append_assoc, List.append_assoc] at second
  exact .append (first inner outer own) second

/-- Children that stand one behind the other. -/
theorem flatMap {α : Type} {items : List α} {chars : α → List Char} {children : α → List Element}
    (each : ∀ item ∈ items, Reads dialect layout (chars item) "" (children item)) :
    Reads dialect layout (items.flatMap chars) "" (items.flatMap children) := by
  induction items with
  | nil => exact nil
  | cons item items ih =>
    rw [List.forall_mem_cons] at each
    exact append each.1 (ih each.2)

theorem blank (chars : List Char) (blank : chars.all isBlank = true) :
    Reads dialect true chars "" [] := by
  intro inner outer own
  induction chars with
  | nil => exact nil inner outer own
  | cons char chars ih =>
    simp only [List.all_cons, Bool.and_eq_true] at blank
    have notTag : char ≠ '<' := by
      rintro rfl
      exact absurd blank.1 (by decide)
    exact .cons (by simp [State.step, State.stepContent, notTag, own, blank.1]) (ih blank.2)

theorem behind_blank {front chars : List Char} {text : String} {children : List Element}
    (reads : Reads dialect true chars text children) (blanks : front.all isBlank = true) :
    Reads dialect true (front ++ chars) text children := by
  have both := (blank front blanks).append reads
  rw [String.empty_append, List.nil_append] at both
  exact both

theorem before_blank {chars back : List Char} {text : String} {children : List Element}
    (reads : Reads dialect true chars text children) (blanks : back.all isBlank = true) :
    Reads dialect true (chars ++ back) text children := by
  have both := reads.append (blank back blanks)
  rw [String.append_empty, List.append_nil] at both
  exact both

theorem text (escaped : ∀ char, Escaped char (image char)) (text : String) :
    Reads dialect false (text.toList.flatMap image) text [] := by
  intro inner outer own
  have leads := leads_text escaped inner outer own text.toList
  rw [String.ofList_toList] at leads
  rw [List.append_nil]
  exact leads

/-- Characters without a meaning of their own need no escaping. -/
theorem verbatim {chars : List Char} (plain : ∀ char ∈ chars, char ≠ '<' ∧ char ≠ '&') :
    Reads dialect false chars (String.ofList chars) [] := by
  intro inner outer own
  induction chars generalizing inner with
  | nil =>
    rw [String.ofList_nil]
    exact nil inner outer own
  | cons char chars ih =>
    rw [List.forall_mem_cons] at plain
    have first : (⟨.content, inner, outer⟩ : State).step dialect char = some ⟨.content,
        inner.write char, outer⟩ := by
      simp [State.step, State.stepContent, plain.1, own]
    have same : inner.text.push char ++ String.ofList chars = inner.text ++
        String.ofList (char :: chars) := by
      apply String.toList_inj.mp
      simp
    have later := ih plain.2 (inner.write char) own
    simp only [Element.write, same] at later
    exact .cons first later

/-- What stands between an exclamation mark and the end of the tag is not read. -/
theorem skipped {chars : List Char} (whole : '>' ∉ chars) :
    Reads dialect layout ('<' :: '!' :: (chars ++ ['>'])) "" [] := by
  intro inner outer _
  have opens : (⟨.content, inner, outer⟩ : State).step dialect '<' = some ⟨.opened, inner, outer⟩ :=
    rfl
  have skips : (⟨.opened, inner, outer⟩ : State).step dialect '!' = some ⟨.skipped, inner, outer⟩ :=
    rfl
  have ends : (⟨.skipped, inner, outer⟩ : State).step dialect '>' = some ⟨.content, inner, outer⟩ :=
    rfl
  have stays : Leads dialect ⟨.skipped, inner, outer⟩ chars ⟨.skipped, inner, outer⟩ := by
    induction chars with
    | nil => exact .nil _
    | cons char chars ih =>
      have goesOn : char ≠ '>' := fun same => whole (same ▸ List.mem_cons_self ..)
      exact .cons (by simp [State.step, goesOn]) (ih fun member =>
        whole (List.mem_cons_of_mem char member))
  rw [String.append_empty, List.append_nil, Element.eta]
  exact .cons opens (.cons skips (.append stays (.one ends)))

variable {name : String} {attributes : List (String × String)}

theorem element {body : List Char} {text : String} {children : List Element}
    (escaped : ∀ char, Escaped char (image char)) (named : IsTagName name)
    (keys : ∀ pair ∈ attributes, IsKey pair.1) (ends : dialect.isVoid name = false)
    (reads : Reads dialect (dialect.layout name) body text children) :
    Reads dialect layout (startChars image name attributes ++ (body ++ finishChars name)) ""
      [⟨name, attributes, text, children⟩] := by
  intro inner outer _
  have opens : State.open_ dialect ⟨.content, inner, outer⟩ (.tag name attributes) =
      ⟨.content, .tag name attributes, inner :: outer⟩ := by
    simp [State.open_, Element.tag, ends]
  have starts : Leads dialect ⟨.content, inner, outer⟩ (startChars image name attributes)
      ⟨.content, .tag name attributes, inner :: outer⟩ := opens ▸ leads_start escaped named keys
  have fills := reads (.tag name attributes) (inner :: outer) rfl
  simp only [Element.tag, String.empty_append, List.nil_append] at fills
  have finishes : Leads dialect ⟨.content, ⟨name, attributes, text, children⟩,
      inner :: outer⟩ (finishChars name)
      ⟨.content, Element.add ⟨name, attributes, text, children⟩ inner, outer⟩ := leads_finish named
  rw [String.append_empty]
  exact .append starts (.append fills finishes)

theorem whole (escaped : ∀ char, Escaped char (image char)) (named : IsTagName name)
    (keys : ∀ pair ∈ attributes, IsKey pair.1) :
    Reads dialect layout (wholeChars image name attributes) "" [.tag name attributes] := by
  intro inner outer _
  rw [String.append_empty]
  exact leads_whole escaped named keys

/-- A declaration is read as an element whose name starts with a question mark. -/
theorem declaration (escaped : ∀ char, Escaped char (image char)) (named : IsTagName name)
    (keys : ∀ pair ∈ attributes, IsKey pair.1) :
    Reads dialect layout (declarationChars image name attributes) "" [.tag name attributes] := by
  intro inner outer _
  rw [String.append_empty]
  exact leads_head escaped named keys rfl (.cons rfl (.one rfl))

/-- The start tag of an element that has no end tag. -/
theorem void (escaped : ∀ char, Escaped char (image char)) (named : IsTagName name)
    (keys : ∀ pair ∈ attributes, IsKey pair.1) (ends : dialect.isVoid name = true) :
    Reads dialect layout (startChars image name attributes) "" [.tag name attributes] := by
  intro inner outer _
  have starts : Leads dialect ⟨.content, inner, outer⟩ (startChars image name attributes)
      (State.open_ dialect ⟨.content, inner, outer⟩ (.tag name attributes)) :=
      leads_start escaped named keys
  rw [State.open_, if_pos (by simpa [Element.tag] using ends)] at starts
  rw [String.append_empty]
  exact starts

end Reads

section
variable {α β : Type} {read : Element → Option α} {layout : Bool}

/-- Text that is read as elements, which tell these entries. -/
def Tells (dialect : Dialect) (layout : Bool) (read : Element → Option α) (chars : List Char)
    (entries : List α) :
    Prop :=
  ∃ elements, Reads dialect layout chars "" elements ∧ elements.mapM read = some entries

namespace Tells

theorem one {chars : List Char} {element : Element} {entry : α}
    (reads : Reads dialect layout chars "" [element]) (told : read element = some entry) :
    Tells dialect layout read chars [entry] :=
  ⟨[element], reads, by rw [List.mapM_cons, told]; rfl⟩

private theorem append {front back : List Char} {entries entries' : List α}
    (first : Tells dialect layout read front entries)
    (later : Tells dialect layout read back entries') :
    Tells dialect layout read (front ++ back) (entries ++ entries') := by
  obtain ⟨elements, reads, told⟩ := first
  obtain ⟨elements', reads', told'⟩ := later
  refine ⟨elements ++ elements', reads.append reads', ?_⟩
  rw [List.mapM_append, told, told']
  rfl

theorem flatMap {items : List β} {chars : β → List Char} {entry : β → α}
    (each : ∀ item ∈ items, Tells dialect layout read (chars item) [entry item]) :
    Tells dialect layout read (items.flatMap chars) (items.map entry) := by
  induction items with
  | nil => exact ⟨[], Reads.nil, rfl⟩
  | cons item items ih =>
    rw [List.forall_mem_cons] at each
    exact append each.1 (ih each.2)

theorem exists_element {chars : List Char} {entry : α}
    (told : Tells dialect layout read chars [entry]) :
    ∃ element, Reads dialect layout chars "" [element] ∧ read element = some entry := by
  obtain ⟨elements, reads, told⟩ := told
  cases elements with
  | nil => cases told
  | cons element rest =>
    rw [List.mapM_cons] at told
    obtain ⟨first, known, told⟩ := Option.bind_eq_some_iff.mp told
    obtain ⟨others, unknown, told⟩ := Option.bind_eq_some_iff.mp told
    cases told
    cases rest with
    | nil => exact ⟨element, reads, known⟩
    | cons next rest =>
      rw [List.mapM_cons] at unknown
      obtain ⟨_, _, unknown⟩ := Option.bind_eq_some_iff.mp unknown
      obtain ⟨_, _, unknown⟩ := Option.bind_eq_some_iff.mp unknown
      cases unknown

end Tells
end

theorem read_of_reads {document : String} {text : String} {children : List Element}
    (reads : Reads dialect (dialect.layout "") document.toList text children) :
    read dialect document = some children := by
  have leads := reads (.tag "" []) [] rfl
  unfold Leads at leads
  rw [read, leads]
  rfl

end

end TagReader
end ClassCoverage.Report
