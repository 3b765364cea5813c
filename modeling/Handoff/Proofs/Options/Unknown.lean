import Handoff.Proofs.Json.Kept
import Handoff.Proofs.Json.Reader
import Handoff.Proofs.Options
/-!
# Unknown dialects

A text whose options could be read but for the names of its dialects is refused for the first name that
no dialect has, and it is read if there is no such name. How it is refused depends on its form. In an
object the names are looked up before anything else is read, the last one of a member that comes again;
the refusal names the dialect. In a list there is nothing to look up: the name is met where the value
is read, and the refusal is that of a value.

Results:
* `Options.look_object`: the first look at an object finds what is unknown in it.
* `Options.readPlaces_of_known`, `Options.readPlaces_of_unknown`: what is read with other names in place.
* `Options.ofText_unknown_iff`: what comes of a text, by its form.
-/
namespace Handoff
open Sorted (putAll change)

/-! ## Names that are given -/

namespace Json

def string? : Json → Option String
  | .string s => some s
  | _ => none

/-- The value with another text in place of a text. -/
def withString (s : String) : Json → Json
  | .string _ => .string s
  | v => v

theorem string?_sortMembers (v : Json) : v.sortMembers.string? = v.string? := by
  cases v <;> rfl

theorem sortMembers_withString (s : String) (v : Json) :
    (v.withString s).sortMembers = v.sortMembers.withString s := by
  cases v <;> rfl

end Json

namespace Options

/-- The name that a value gives for a dialect: in an object that of the last member so called, in a
list that of the item at its place. -/
def givenName? (member : String) (place : ℕ) : Json → Option String
  | .object members => (members.reverse.lookup member).bind Json.string?
  | .array items => items[place]?.bind Json.string?
  | _ => none

/-- The value with other names in place of those given for its dialects. -/
def respell (markup stylesheet : String) : Json → Json
  | .object members => .object (members.map fun e => (e.1,
      if e.1 = "markup" then e.2.withString markup
      else if e.1 = "stylesheet" then e.2.withString stylesheet else e.2))
  | .array items => .array (items.mapIdx fun place v =>
      if place = 0 then v.withString markup
      else if place = 1 then v.withString stylesheet else v)
  | v => v

/-- The first of the given names that no dialect has: what is told of it. -/
inductive Unknown (v : Json) : GenerationError → Prop
  | markup {name : String} (given : givenName? "markup" 0 v = some name)
      (unknown : MarkupDialect.ofLower? (Text.lower (Text.trim name)) = none) :
      Unknown v (.unknownDialect .markup (Text.lower (Text.trim name)))
  | stylesheet {name : String}
      (first : ∀ name, givenName? "markup" 0 v = some name →
        MarkupDialect.ofLower? (Text.lower (Text.trim name)) ≠ none)
      (given : givenName? "stylesheet" 1 v = some name)
      (unknown : StyleDialect.ofLower? (Text.lower (Text.trim name)) = none) :
      Unknown v (.unknownDialect .stylesheet (Text.lower (Text.trim name)))

/-- Whether the names given are those of dialects. -/
structure Known (v : Json) : Prop where
  markup : ∀ name, givenName? "markup" 0 v = some name → ∃ d, MarkupDialect.parse name = .ok d
  stylesheet : ∀ name, givenName? "stylesheet" 1 v = some name →
    ∃ d, StyleDialect.parse name = .ok d

end Options

section
variable {name : String}

theorem MarkupDialect.parse_unknown (h : ofLower? (Text.lower (Text.trim name)) = none) :
    parse name = .error (.unknownDialect .markup (Text.lower (Text.trim name))) := by
  unfold parse
  dsimp only
  rw [h]

theorem MarkupDialect.exists_parse (h : ofLower? (Text.lower (Text.trim name)) ≠ none) :
    ∃ d, parse name = .ok d := by
  obtain ⟨d, known⟩ := Option.ne_none_iff_exists'.mp h
  unfold parse
  dsimp only
  rw [known]
  exact ⟨d, rfl⟩

theorem StyleDialect.parse_unknown (h : ofLower? (Text.lower (Text.trim name)) = none) :
    parse name = .error (.unknownDialect .stylesheet (Text.lower (Text.trim name))) := by
  unfold parse
  dsimp only
  rw [h]

theorem StyleDialect.exists_parse (h : ofLower? (Text.lower (Text.trim name)) ≠ none) :
    ∃ d, parse name = .ok d := by
  obtain ⟨d, known⟩ := Option.ne_none_iff_exists'.mp h
  unfold parse
  dsimp only
  rw [known]
  exact ⟨d, rfl⟩

end

namespace Options

variable {v : Json} {e : GenerationError}

/-- Either all names are those of dialects, or the first that is not is told. -/
theorem known_or_unknown (v : Json) : Known v ∨ ∃ e, Unknown v e := by
  by_cases first : ∀ name, givenName? "markup" 0 v = some name →
      MarkupDialect.ofLower? (Text.lower (Text.trim name)) ≠ none
  · by_cases second : ∀ name, givenName? "stylesheet" 1 v = some name →
        StyleDialect.ofLower? (Text.lower (Text.trim name)) ≠ none
    · exact .inl ⟨fun name given => MarkupDialect.exists_parse (first name given),
        fun name given => StyleDialect.exists_parse (second name given)⟩
    · push Not at second
      obtain ⟨name, given, unknown⟩ := second
      exact .inr ⟨_, .stylesheet first given unknown⟩
  · push Not at first
    obtain ⟨name, given, unknown⟩ := first
    exact .inr ⟨_, .markup given unknown⟩

theorem Known.not_unknown (known : Known v) : ¬Unknown v e := by
  rintro (⟨given, unknown⟩ | ⟨-, given, unknown⟩)
  · obtain ⟨d, parsed⟩ := known.markup _ given
    cases (MarkupDialect.parse_unknown unknown).symm.trans parsed
  · obtain ⟨d, parsed⟩ := known.stylesheet _ given
    cases (StyleDialect.parse_unknown unknown).symm.trans parsed

theorem Unknown.unique {e' : GenerationError} (h : Unknown v e) (h' : Unknown v e') : e = e' := by
  cases h with
  | markup given unknown =>
    cases h' with
    | markup given' _ =>
      cases given.symm.trans given'
      rfl
    | stylesheet first _ _ => exact absurd unknown (first _ given)
  | stylesheet first given unknown =>
    cases h' with
    | markup given' unknown' => exact absurd unknown' (first _ given')
    | stylesheet _ given' _ =>
      cases given.symm.trans given'
      rfl

/-! ## The first look -/

section
variable {α : Type} {parse : String → Except GenerationError α} {member : Option Json}

theorem checkName_of_known
    (known : ∀ name, member.bind Json.string? = some name → ∃ d, parse name = .ok d) :
    checkName parse member = .ok () := by
  cases member with
  | none => rfl
  | some v =>
    cases v with
    | string name =>
      obtain ⟨d, parsed⟩ := known name rfl
      exact map_ok parsed _
    | _ => rfl

theorem checkName_of_unknown {name : String} (given : member.bind Json.string? = some name)
    (refused : parse name = .error e) : checkName parse member = .error e := by
  obtain ⟨v, rfl, given⟩ := Option.bind_eq_some_iff.mp given
  cases v <;> cases given
  show (fun _ => ()) <$> parse name = _
  rw [refused]
  rfl

end

/-- What is looked at before the rest of a value is read. -/
def look (v : Json) : Except GenerationError Unit := do
  checkName MarkupDialect.parse (v.member? "markup")
  checkName StyleDialect.parse (v.member? "stylesheet")

theorem ofText_eq {text : String} (holds : Json.ofText text = .ok v) :
    ofText text = match look v.sortMembers with
      | .error e => .error (.dialect e)
      | .ok () => (ofJson v.sortMembers).mapError fun cause => .unreadable (.mismatch cause) := by
  unfold ofText
  rw [holds]
  rfl

def sortedOf (members : List (String × Json)) : List (String × Json) :=
  putAll [] (change (fun _ => Json.sortMembers) members)

theorem lookup_sortedOf (members : List (String × Json)) (member : String) (place : ℕ) :
    ((sortedOf members).lookup member).bind Json.string? =
      givenName? member place (.object members) := by
  have reversed : (change (fun _ => Json.sortMembers) members).reverse =
      change (fun _ => Json.sortMembers) members.reverse := by
    rw [change, change, List.map_reverse]
  rw [sortedOf, Sorted.lookup_putAll, reversed, Sorted.lookup_change, givenName?]
  cases members.reverse.lookup member with
  | none => rfl
  | some v => exact v.string?_sortMembers

theorem look_object_of_unknown {members : List (String × Json)}
    (h : Unknown (.object members) e) : look (.object (sortedOf members)) = .error e := by
  unfold look
  cases h with
  | markup given unknown =>
    rw [← lookup_sortedOf] at given
    have refused := checkName_of_unknown given (MarkupDialect.parse_unknown unknown)
    rw [Json.member?, refused]
    rfl
  | stylesheet first given unknown =>
    have passed : checkName MarkupDialect.parse ((sortedOf members).lookup "markup") = .ok () :=
      checkName_of_known fun name given =>
        MarkupDialect.exists_parse (first name (by rw [← lookup_sortedOf, given]))
    rw [← lookup_sortedOf] at given
    have refused := checkName_of_unknown given (StyleDialect.parse_unknown unknown)
    rw [Json.member?, passed, Json.member?]
    exact refused

theorem look_object_of_known {members : List (String × Json)} (h : Known (.object members)) :
    look (.object (sortedOf members)) = .ok () := by
  have markup : checkName MarkupDialect.parse ((sortedOf members).lookup "markup") = .ok () :=
    checkName_of_known fun name given => h.markup name (by rw [← lookup_sortedOf, given])
  have stylesheet : checkName StyleDialect.parse ((sortedOf members).lookup "stylesheet") = .ok () :=
    checkName_of_known fun name given => h.stylesheet name (by rw [← lookup_sortedOf, given])
  unfold look
  rw [Json.member?, markup, Json.member?]
  exact stylesheet

theorem look_array (items : List Json) : look (.array items) = .ok () := rfl

/-! ## Reading -/

def dialectField {α : Type} (name : String) (parse : String → Except GenerationError α)
    (set : Option α → Options → Options) : KeptField Options :=
  ⟨name, fun v => set <$> asDialect parse v⟩

def markupField : KeptField Options :=
  dialectField "markup" MarkupDialect.parse fun markup o => { o with markup }

def stylesheetField : KeptField Options :=
  dialectField "stylesheet" StyleDialect.parse fun stylesheet o => { o with stylesheet }

def otherFields : List (KeptField Options) := fields.drop 2

theorem fields_eq : fields = markupField :: stylesheetField :: otherFields := rfl

theorem eq_of_name {f g : KeptField Options} (hf : f ∈ fields) (hg : g ∈ fields)
    (same : f.name = g.name) : f = g := by
  have distinct : (fields.map KeptField.name).Nodup := by decide
  exact List.inj_on_of_nodup_map distinct hf hg same

theorem markupField_mem : markupField ∈ fields := List.mem_cons_self ..

theorem stylesheetField_mem : stylesheetField ∈ fields := List.mem_cons_of_mem _ (List.mem_cons_self ..)

section
variable {α : Type} {parse : String → Except GenerationError α} {set : Option α → Options → Options}

theorem dialectField_unknown {member name : String} (given : v.string? = some name)
    (refused : parse name = .error e) :
    (dialectField member parse set).read v = .error (.refused e.message) := by
  cases v <;> cases given
  show set <$> asDialect parse (.string name) = _
  rw [asDialect_of_error refused]
  rfl

/-- A name of a dialect can be read in place of another name. -/
theorem dialectField_reads {member s : String}
    (known : ∀ name, v.string? = some name → ∃ d, parse name = .ok d)
    (read : (dialectField member parse set).Reads (v.withString s)) :
    (dialectField member parse set).Reads v := by
  cases v with
  | string name =>
    obtain ⟨d, parsed⟩ := known name rfl
    exact ⟨set (some d), map_ok (asDialect_of_ok parsed) set⟩
  | _ => exact read

end

/-! ## Objects -/

/-- A member with another name in place of one given for a dialect. -/
def spelled (markup stylesheet member : String) (v : Json) : Json :=
  if member = "markup" then v.withString markup
  else if member = "stylesheet" then v.withString stylesheet else v

theorem sortMembers_spelled (markup stylesheet member : String) (v : Json) :
    (spelled markup stylesheet member v).sortMembers =
      spelled markup stylesheet member v.sortMembers := by
  unfold spelled
  split_ifs
  · exact v.sortMembers_withString markup
  · exact v.sortMembers_withString stylesheet
  · rfl

theorem sortMembers_respell_object (markup stylesheet : String) (members : List (String × Json)) :
    (respell markup stylesheet (.object members)).sortMembers =
      .object (change (spelled markup stylesheet) (sortedOf members)) := by
  have swap : change (fun _ => Json.sortMembers) (change (spelled markup stylesheet) members) =
      change (spelled markup stylesheet) (change (fun _ => Json.sortMembers) members) := by
    simp only [change, List.map_map]
    exact List.map_congr_left fun e _ => congrArg (Prod.mk e.1) (sortMembers_spelled ..)
  rw [respell, Json.sortMembers_object]
  exact congrArg Json.object ((congrArg (putAll []) swap).trans
    (Sorted.putAll_change (spelled markup stylesheet) [] _))

theorem passes_sortedOf {members : List (String × Json)} (known : Known (.object members))
    (markup stylesheet : String) : List.Forall₂ (Passes fields)
      (change (spelled markup stylesheet) (sortedOf members)) (sortedOf members) := by
  have ascending : Sorted.Ascending (sortedOf members) :=
    Sorted.ascending_putAll List.Pairwise.nil _
  refine List.forall₂_map_left_iff.mpr (List.forall₂_same.mpr fun entry there => ?_)
  have found : (sortedOf members).lookup entry.1 = some entry.2 :=
    Keyed.lookup_eq_some_of_mem ascending.nodup there
  have given {name : String} (place : ℕ) (h : entry.2.string? = some name) :
      givenName? entry.1 place (.object members) = some name := by
    rw [← lookup_sortedOf, found]
    exact h
  refine ⟨rfl, fun f hf named read => ?_⟩
  dsimp only [spelled] at named read
  split_ifs at read with first second
  · cases eq_of_name hf markupField_mem (named.trans first)
    exact dialectField_reads (fun name h => known.markup name (first ▸ given 0 h)) read
  · cases eq_of_name hf stylesheetField_mem (named.trans second)
    exact dialectField_reads (fun name h => known.stylesheet name (second ▸ given 1 h)) read
  · exact read

/-! ## Lists -/

/-- An item with another name in place of one given for a dialect. -/
def spelledAt (markup stylesheet : String) (place : ℕ) (v : Json) : Json :=
  if place = 0 then v.withString markup
  else if place = 1 then v.withString stylesheet else v

theorem sortMembers_respell_array (markup stylesheet : String) (items : List Json) :
    (respell markup stylesheet (.array items)).sortMembers =
      .array ((items.map Json.sortMembers).mapIdx (spelledAt markup stylesheet)) := by
  have swap (place : ℕ) : Json.sortMembers ∘ spelledAt markup stylesheet place =
      spelledAt markup stylesheet place ∘ Json.sortMembers := by
    funext v
    dsimp only [Function.comp, spelledAt]
    split_ifs
    · exact v.sortMembers_withString markup
    · exact v.sortMembers_withString stylesheet
    · rfl
  rw [respell, Json.sortMembers_array]
  refine congrArg Json.array (List.ext_getElem? fun place => ?_)
  rw [List.getElem?_map, List.getElem?_mapIdx, List.getElem?_mapIdx, List.getElem?_map,
    Option.map_map, Option.map_map]
  exact congrFun (congrArg Option.map (swap place)) _

section
variable {length : ℕ} {sofar o : Options} {markup stylesheet : String} {items : List Json}

/-- The items of a list can be read in place of those with other names. -/
theorem readPlaces_of_known (known : Known (.array items))
    (accepted : Json.readPlaces length fields sofar
      (items.mapIdx (spelledAt markup stylesheet)) = .ok o) :
    ∃ p, Json.readPlaces length fields sofar items = .ok p := by
  refine readPlaces_of_passes (List.length_mapIdx ..) (fun place f v v' hf hv hv' read => ?_) accepted
  have given {name : String} (member : String) (h : v'.string? = some name) :
      givenName? member place (.array items) = some name := by
    rw [givenName?, hv']
    exact h
  rw [List.getElem?_mapIdx, hv'] at hv
  cases hv
  match place with
  | 0 =>
    cases hf
    exact dialectField_reads (fun name h => known.markup name (given "markup" h)) read
  | 1 =>
    cases hf
    exact dialectField_reads (fun name h => known.stylesheet name (given "stylesheet" h)) read
  | place + 2 => exact read

/-- The first unknown name in a list is refused where it is read. -/
theorem readPlaces_of_unknown (unknown : Unknown (.array items) e)
    (accepted : Json.readPlaces length fields sofar
      (items.mapIdx (spelledAt markup stylesheet)) = .ok o) :
    Json.readPlaces length fields sofar items = .error (.refused e.message) := by
  rw [fields_eq] at accepted ⊢
  cases items with
  | nil =>
    cases unknown with
    | markup given _ => cases given
    | stylesheet _ given _ => cases given
  | cons m rest =>
    rw [List.mapIdx_cons, readPlaces_cons] at accepted
    obtain ⟨set, value, later⟩ := exists_of_bind_eq_ok accepted
    cases unknown with
    | markup given unknown =>
      have refused : markupField.read m = .error (.refused _) :=
        dialectField_unknown given (MarkupDialect.parse_unknown unknown)
      rw [readPlaces_cons, refused]
      rfl
    | stylesheet first given unknown =>
      obtain ⟨set', value'⟩ : markupField.Reads m :=
        dialectField_reads (fun name h => MarkupDialect.exists_parse (first name h)) ⟨set, value⟩
      cases rest with
      | nil => cases given
      | cons s rest =>
        have refused : stylesheetField.read s = .error (.refused _) :=
          dialectField_unknown given (StyleDialect.parse_unknown unknown)
        rw [readPlaces_cons, value']
        show Json.readPlaces length (stylesheetField :: otherFields) _ _ = _
        rw [readPlaces_cons, refused]
        rfl

theorem readPlaces_of_respelled
    (accepted : ofJson (respell markup stylesheet (.array items)).sortMembers = .ok o) :
    Json.readPlaces (items.map Json.sortMembers).length fields {}
      ((items.map Json.sortMembers).mapIdx (spelledAt markup stylesheet)) = .ok o := by
  have read : Json.readPlaces ((items.map Json.sortMembers).mapIdx
      (spelledAt markup stylesheet)).length fields {}
      ((items.map Json.sortMembers).mapIdx (spelledAt markup stylesheet)) = .ok o := by
    rw [sortMembers_respell_array] at accepted
    exact accepted
  rwa [List.length_mapIdx] at read

end

/-- Sorting the items of a list keeps the names that it gives. -/
theorem givenName?_sorted (member : String) (place : ℕ) (items : List Json) :
    givenName? member place (.array (items.map Json.sortMembers)) =
      givenName? member place (.array items) := by
  rw [givenName?, givenName?, List.getElem?_map]
  cases items[place]? with
  | none => rfl
  | some v => exact v.string?_sortMembers

theorem known_sorted {items : List Json} (h : Known (.array items)) :
    Known (.array (items.map Json.sortMembers)) := by
  refine ⟨fun name given => h.markup name ?_, fun name given => h.stylesheet name ?_⟩
  · rwa [givenName?_sorted] at given
  · rwa [givenName?_sorted] at given

theorem unknown_sorted {items : List Json} (h : Unknown (.array items) e) :
    Unknown (.array (items.map Json.sortMembers)) e := by
  cases h with
  | markup given unknown =>
    rw [← givenName?_sorted] at given
    exact .markup given unknown
  | stylesheet first given unknown =>
    rw [← givenName?_sorted] at given
    refine .stylesheet (fun name given => first name ?_) given unknown
    rwa [givenName?_sorted] at given

/-! ## Texts -/

/-- What a value is refused for when a name given for a dialect is unknown: an object for that name, a
list for a value that it holds. -/
def refusal (e : GenerationError) : Json → OptionsError
  | .array _ => .unreadable (.mismatch (.refused e.message))
  | _ => .dialect e

section
variable {text respelled markup stylesheet : String} {o : Options}

theorem ofJson_of_ofText (holds : Json.ofText text = .ok v) (accepted : ofText text = .ok o) :
    ofJson v.sortMembers = .ok o := by
  rw [ofText_eq holds] at accepted
  split at accepted
  · cases accepted
  · cases read : ofJson v.sortMembers with
    | error cause =>
      rw [read] at accepted
      cases accepted
    | ok p =>
      rw [read] at accepted
      cases accepted
      rfl

/-- A text that could be read but for an unknown name is refused for it. -/
theorem ofText_of_unknown (holds : Json.ofText text = .ok v)
    (holds' : Json.ofText respelled = .ok (respell markup stylesheet v))
    (accepted : ofText respelled = .ok o) (unknown : Unknown v e) :
    ofText text = .error (refusal e v) := by
  rw [ofText_eq holds]
  cases v with
  | object members =>
    have look := look_object_of_unknown unknown
    rw [sortedOf, ← Json.sortMembers_object] at look
    rw [look]
    rfl
  | array items =>
    have refused := readPlaces_of_unknown (unknown_sorted unknown)
      (readPlaces_of_respelled (ofJson_of_ofText holds' accepted))
    rw [Json.sortMembers_array, look_array]
    show (Json.readPlaces _ fields {} _).mapError _ = _
    rw [refused]
    rfl
  | _ =>
    cases unknown with
    | markup given _ => cases given
    | stylesheet _ given _ => cases given

/-- A text that could be read with other names is read if all its names are known. -/
theorem ofText_of_known (holds : Json.ofText text = .ok v)
    (holds' : Json.ofText respelled = .ok (respell markup stylesheet v))
    (accepted : ofText respelled = .ok o) (known : Known v) : ∃ p, ofText text = .ok p := by
  have accepted := ofJson_of_ofText holds' accepted
  have read : ∃ p, ofJson v.sortMembers = .ok p := by
    cases v with
    | object members =>
      rw [sortMembers_respell_object] at accepted
      rw [Json.sortMembers_object]
      exact readKept_of_passes (passes_sortedOf known markup stylesheet) accepted
    | array items =>
      rw [Json.sortMembers_array]
      exact readPlaces_of_known (known_sorted known) (readPlaces_of_respelled accepted)
    | _ => exact ⟨o, accepted⟩
  obtain ⟨p, read⟩ := read
  have look : look v.sortMembers = .ok () := by
    cases v with
    | object members =>
      rw [Json.sortMembers_object]
      exact look_object_of_known known
    | _ => rfl
  rw [ofText_eq holds, look]
  dsimp only
  rw [read]
  exact ⟨p, rfl⟩

/-- Unknown dialects, for any text that could be read with names of dialects in place of those it gives.
It is read exactly if all its names are known. It is refused for the first name that is not, with the
name trimmed and in small letters, exactly if it is no list; a list is refused for a value that cannot
be read. -/
theorem ofText_unknown_iff (holds : Json.ofText text = .ok v)
    (holds' : Json.ofText respelled = .ok (respell markup stylesheet v))
    (accepted : ofText respelled = .ok o) :
    ((∃ p, ofText text = .ok p) ↔ ∀ e, ¬Unknown v e) ∧
      (∀ e, ofText text = .error (.dialect e) ↔ Unknown v e ∧ ∀ items, v ≠ .array items) ∧
      ∀ fault, ofText text = .error (.unreadable fault) ↔
        ∃ e, Unknown v e ∧ (∃ items, v = .array items) ∧ fault = .mismatch (.refused e.message) := by
  rcases known_or_unknown v with known | ⟨e, unknown⟩
  · obtain ⟨p, read⟩ := ofText_of_known holds holds' accepted known
    have none (e : GenerationError) : ¬Unknown v e := known.not_unknown
    have notRefused (error : OptionsError) : ofText text ≠ .error error := by
      rw [read]
      exact nofun
    exact ⟨iff_of_true ⟨p, read⟩ none,
      fun e => iff_of_false (notRefused _) fun h => none e h.1,
      fun fault => iff_of_false (notRefused _) fun ⟨e, h, _⟩ => none e h⟩
  · rw [ofText_of_unknown holds holds' accepted unknown]
    refine ⟨iff_of_false nofun fun none => none e unknown, fun e' => ⟨fun told => ?_, ?_⟩,
      fun fault => ⟨fun told => ?_, ?_⟩⟩
    · cases v with
      | array items => cases told
      | _ =>
        cases told
        exact ⟨unknown, nofun⟩
    · rintro ⟨unknown', form⟩
      cases unknown.unique unknown'
      cases v with
      | array items => exact absurd rfl (form items)
      | _ => rfl
    · cases v with
      | array items =>
        cases told
        exact ⟨e, unknown, ⟨items, rfl⟩, rfl⟩
      | _ => cases told
    · rintro ⟨e', unknown', ⟨items, rfl⟩, rfl⟩
      cases unknown.unique unknown'
      rfl

def unknownList : Json := .array [.string " Svelte", .string "plain"]

/-- A list with the names of dialects in their place is read; with the unknown name it is refused for a
value that cannot be read, and the name stands in the text of that refusal only. -/
theorem ofText_unknown_list :
    Json.ofText unknownList.text = .ok unknownList ∧
      Json.ofText (respell "static" "css" unknownList).text =
        .ok (respell "static" "css" unknownList) ∧
      ofText (respell "static" "css" unknownList).text =
        .ok { markup := some .static, stylesheet := some .plain } ∧
      Unknown unknownList (.unknownDialect .markup "svelte") ∧
      ofText unknownList.text =
        .error (.unreadable (.mismatch (.refused "Unknown markup dialect 'svelte'"))) := by
  have holds : Json.ofText unknownList.text = .ok unknownList :=
    Json.ofText_text ⟨⟨trivial, trivial, trivial⟩, nofun⟩ ⟨trivial, trivial, trivial⟩
  have holds' : Json.ofText (respell "static" "css" unknownList).text =
      .ok (respell "static" "css" unknownList) :=
    Json.ofText_text ⟨⟨trivial, trivial, trivial⟩, nofun⟩ ⟨trivial, trivial, trivial⟩
  have accepted : ofText (respell "static" "css" unknownList).text =
      .ok { markup := some .static, stylesheet := some .plain } := by
    rw [ofText_eq holds']
    rfl
  have given : givenName? "markup" 0 unknownList = some " Svelte" := rfl
  have unknown : Unknown unknownList (.unknownDialect .markup "svelte") :=
    @Unknown.markup unknownList " Svelte" given rfl
  exact ⟨holds, holds', accepted, unknown,
    ((ofText_unknown_iff holds holds' accepted).2.2 _).mpr ⟨_, unknown, ⟨_, rfl⟩, rfl⟩⟩

end

end Options
end Handoff
