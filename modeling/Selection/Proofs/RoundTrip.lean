import Selection.Proofs.Compilation
import Selection.Proofs.Decoded

/-! # Criteria through their documents and back

A settled criterion is decoded from its encoding as a JSON value, and from its text whenever the
floats in the text are read back and the text nests no deeper than is read. No encoding has the
right-hand literal of the first version.
-/

namespace Selection

open Document (member)

/-! ## The JSON value of a text -/

namespace Document

theorem map_member (key : String) (j : Option Json) :
    (member key j).map (fun m => (m.1, m.2.sorted)) = member key (j.map Json.sorted) := by
  cases j <;> rfl

@[simp] theorem mem_member {key : String} {j : Option Json} {m : String × Json} :
    m ∈ member key j ↔ ∃ v ∈ j, m = (key, v) := by
  cases j <;> simp [member]

end Document

namespace Json

theorem sortedItems_eq (items : List Json) : sortedItems items = items.map sorted := by
  induction items with
  | nil => rfl
  | cons item rest ih => rw [sortedItems, ih, List.map_cons]

theorem sortedMembers_eq (members : List (String × Json)) :
    sortedMembers members = members.map fun m => (m.1, m.2.sorted) := by
  induction members with
  | nil => rfl
  | cons m rest ih =>
      obtain ⟨key, value⟩ := m
      rw [sortedMembers, ih, List.map_cons]

end Json

namespace Value

/-- The JSON form of a value has no containers. -/
theorem sorted_toJson (v : Value) : v.toJson.sorted = v.toJson := by
  cases v with
  | float x =>
      rw [toJson]
      split <;> rfl
  | _ => rfl

end Value

namespace Criterion

/-- The JSON value that the text of a criterion is written from. Its members stand in the order of
the attributes. -/
def document (c : Criterion) : Json :=
  Document.write .object (Document.ofCriterion c)

/-- The text of a criterion is that of its document. -/
theorem toText_eq (c : Criterion) : c.toText = c.document.text :=
  rfl

/-- The document of a criterion is an object of its members, with the documents of its parts in
them. -/
theorem document_eq (c : Criterion) : c.document = .object (c.members document) :=
  write_ofCriterion .object c

/-- Sorting the document of a criterion gives its JSON. -/
theorem sortedMembers_members {c : Criterion}
    (hright : ∀ r ∈ c.rightHandSide, r.document.sorted = r.toJson)
    (hinner : ∀ i ∈ c.inner, i.document.sorted = i.toJson)
    (hparts : ∀ p ∈ c.parts, p.document.sorted = p.toJson) :
    Json.sortedMembers (c.members document) = c.members toJson := by
  obtain ⟨op, field, right, value, inner, parts⟩ := c
  have hpresent {c? : Option Criterion} (h : ∀ c ∈ c?, c.document.sorted = c.toJson) :
      (c?.map document).map Json.sorted = c?.map toJson := by
    cases c? with
    | none => rfl
    | some c => rw [Option.map_some, Option.map_some, h c rfl, Option.map_some]
  have hfield : (field.map Json.string).map Json.sorted = field.map Json.string := by
    cases field <;> rfl
  have hvalue : (value.map Value.toJson).map Json.sorted = value.map Value.toJson := by
    cases value with
    | none => rfl
    | some v => rw [Option.map_some, Option.map_some, v.sorted_toJson]
  have hlist : (if (parts.map document).isEmpty then none
      else some (Json.array (parts.map document))).map Json.sorted =
      if (parts.map toJson).isEmpty then none else some (.array (parts.map toJson)) := by
    have hsorted : (parts.map document).map Json.sorted = parts.map toJson := by
      rw [List.map_map]
      exact List.map_congr_left hparts
    rw [List.isEmpty_map, List.isEmpty_map]
    split
    · rfl
    · rw [Option.map_some, Json.sorted, Json.sortedItems_eq, hsorted]
  rw [Json.sortedMembers_eq]
  simp only [members, List.map_append, List.map_cons, Document.map_member, hfield, hvalue,
    hpresent (show ∀ c ∈ right, _ from hright), hpresent (show ∀ c ∈ inner, _ from hinner), hlist]
  rfl

/-- The text and the JSON value of a criterion differ only in the order of members. -/
theorem sorted_document (c : Criterion) : c.document.sorted = c.toJson := by
  induction c using Criterion.induction with
  | node op field right value inner parts ihright ihinner ihparts =>
      have hmembers := sortedMembers_members (c := node op field right value inner parts) ihright
        ihinner ihparts
      rw [document_eq, toJson_eq, Json.sorted, hmembers]

/-! ## What encodings have in them -/

/-- What every value in an encoding is like: an object has no right-hand literal of the first
version, and an integer has 64 bits. -/
def Encoded : Json → Prop
  | .object members => "fieldValue" ∉ members.map Prod.fst
  | .number (.integer n) => (Json.Number.integer n).Valid
  | _ => True

variable {encode : Criterion → Json}

/-- The names of the attributes that are written, in their order. -/
theorem names_members (encode : Criterion → Json) (c : Criterion) :
    ((c.members encode).map Prod.fst).Sublist (Document.attributeNames.take 6) := by
  obtain ⟨op, field, right, value, inner, parts⟩ := c
  cases field <;> cases right <;> cases value <;> cases inner <;> cases parts <;>
    simp only [members, member, Option.map_none, Option.map_some, List.map_nil, List.map_cons,
      List.isEmpty_nil, List.isEmpty_cons, if_true, Bool.false_eq_true, if_false, List.nil_append,
      List.cons_append, List.append_nil] <;> decide

/-- What is written for each of the attributes. -/
theorem of_mem_members {op : Operator} {field : Option String} {right inner : Option Criterion}
    {value : Option Value} {parts : List Criterion} {m : String × Json}
    (h : m ∈ (node op field right value inner parts).members encode) :
    m = ("selectionComparison", .string op.name) ∨ (∃ s, m = ("fieldName", .string s)) ∨
      (∃ c ∈ right, m = ("rightHandSide", encode c)) ∨
      (∃ v ∈ value, m = ("constantValue", v.toJson)) ∨
      (∃ c ∈ inner, m = ("innerCriteria", encode c)) ∨
      m = ("aggregateList", .array (parts.map encode)) := by
  simp only [members, List.cons_append, List.mem_cons, List.mem_append, Document.mem_member,
    Option.mem_def, Option.map_eq_some_iff] at h
  rcases h with rfl | ((((⟨_, ⟨s, -, rfl⟩, rfl⟩ | ⟨_, ⟨c, hc, rfl⟩, rfl⟩) |
    ⟨_, ⟨v, hv, rfl⟩, rfl⟩) | ⟨_, ⟨c, hc, rfl⟩, rfl⟩) | ⟨j, hj, rfl⟩)
  · exact .inl rfl
  · exact .inr (.inl ⟨s, rfl⟩)
  · exact .inr (.inr (.inl ⟨c, hc, rfl⟩))
  · exact .inr (.inr (.inr (.inl ⟨v, hv, rfl⟩)))
  · exact .inr (.inr (.inr (.inr (.inl ⟨c, hc, rfl⟩))))
  · split at hj
    · contradiction
    · obtain rfl := Option.some.inj hj
      exact .inr (.inr (.inr (.inr (.inr rfl))))

/-- The operator is written as a string. -/
theorem operator_of_mem_members {c : Criterion} {j : Json}
    (h : ("selectionComparison", j) ∈ c.members encode) : ∃ s, j = .string s := by
  obtain ⟨op, field, right, value, inner, parts⟩ := c
  exact ⟨op.name, by simpa using of_mem_members h⟩

theorem encoded_toJson (v : Value) : ∀ j ∈ v.toJson.within, Encoded j := by
  intro j hj
  cases v with
  | int n =>
      obtain rfl := List.mem_singleton.mp hj
      exact ⟨n.minValue_le_toInt, lt_of_le_of_lt n.toInt_le (by decide)⟩
  | uint n =>
      obtain rfl := List.mem_singleton.mp hj
      exact ⟨le_trans (by decide) (Int.natCast_nonneg _), by exact_mod_cast n.toNat_lt⟩
  | float x =>
      rw [Value.toJson] at hj
      split at hj <;>
      · obtain rfl := List.mem_singleton.mp hj
        trivial
  | _ =>
      obtain rfl := List.mem_singleton.mp hj
      trivial

/-- Everything in the encoding of a criterion is as it should be, in whatever order the members
stand. -/
theorem encoded (hencode : ∀ c, ∃ ms, encode c = .object ms ∧ ms ⊆ c.members encode)
    (c : Criterion) : ∀ j ∈ (encode c).within, Encoded j := by
  induction c using Criterion.induction with
  | node op field right value inner parts ihright ihinner ihparts =>
      obtain ⟨ms, hms, hsubset⟩ := hencode (node op field right value inner parts)
      intro j hj
      rw [hms, Json.mem_within_object] at hj
      rcases hj with rfl | ⟨m, hm, hj⟩
      · intro hname
        have hname := (names_members encode _).subset (List.map_subset _ hsubset hname)
        exact absurd hname (by decide)
      rcases of_mem_members (hsubset hm) with
        rfl | ⟨s, rfl⟩ | ⟨c, hc, rfl⟩ | ⟨v, -, rfl⟩ | ⟨c, hc, rfl⟩ | rfl
      · obtain rfl := List.mem_singleton.mp hj
        trivial
      · obtain rfl := List.mem_singleton.mp hj
        trivial
      · exact ihright c hc j hj
      · exact encoded_toJson v j hj
      · exact ihinner c hc j hj
      · rcases Json.mem_within_array.mp hj with rfl | ⟨item, hitem, hj⟩
        · trivial
        · obtain ⟨c, hc, rfl⟩ := List.mem_map.mp hitem
          exact ihparts c hc j hj

theorem encoded_document (c : Criterion) : ∀ j ∈ c.document.within, Encoded j :=
  encoded (fun c => ⟨_, c.document_eq, List.Subset.refl _⟩) c

theorem encoded_json (c : Criterion) : ∀ j ∈ c.toJson.within, Encoded j := by
  refine encoded (fun c => ?_) c
  obtain ⟨op, field, right, value, inner, parts⟩ := c
  rw [toJson_eq, members, Document.ofMembers_attributes]
  refine ⟨_, rfl, fun m hm => ?_⟩
  simp only [List.cons_append, List.mem_cons, List.mem_append, List.not_mem_nil, or_false] at hm ⊢
  tauto

end Criterion

/-! ## Reading a text -/

namespace Document

open Json (Source Part SourceOf)

/-- An attribute of a text is one of a value: they have one name, and the source denotes the
value. -/
def AttributeOf (depth : Nat) (given : String × Source) (m : String × Json) : Prop :=
  given.1 = m.1 ∧ given.2.value? depth = some m.2.sorted

variable {depth : Nat} {attributes : List (String × Source)} {members : List (String × Json)}

theorem lookup_eq_none {key : String} (h : List.Forall₂ (AttributeOf depth) attributes members)
    (hkey : key ∉ members.map Prod.fst) : attributes.lookup key = none := by
  rw [List.lookup_eq_none_iff]
  intro given hgiven
  induction h with
  | nil => contradiction
  | @cons first m _ _ hhead _ ih =>
      rw [List.map_cons, List.mem_cons, not_or] at hkey
      rcases List.mem_cons.mp hgiven with rfl | hrest
      · rw [hhead.1]
        simpa using hkey.1
      · exact ih hkey.2 hrest

/-- Members that are named like attributes, each name once, are all attributes. -/
theorem attributesOf?_eq_some {sources : List (List Part × Source)}
    (h : List.Forall₂ (SourceOf depth) sources members)
    (hnames : ∀ name ∈ members.map Prod.fst, name ∈ attributeNames)
    (hnodup : (members.map Prod.fst).Nodup) :
    ∃ attributes, attributesOf? sources = some attributes ∧
      List.Forall₂ (AttributeOf depth) attributes members := by
  induction h with
  | nil => exact ⟨[], rfl, .nil⟩
  | @cons source m sources members hhead _ ih =>
      obtain ⟨parts, source⟩ := source
      obtain ⟨key, value⟩ := m
      obtain ⟨hkey, hvalue⟩ := hhead
      simp only at hkey hvalue
      rw [List.map_cons] at hnames hnodup
      obtain ⟨hfresh, hnodup⟩ := List.nodup_cons.mp hnodup
      obtain ⟨attributes, hattributes, hof⟩ :=
        ih (fun name hname => hnames name (List.mem_cons_of_mem _ hname)) hnodup
      refine ⟨(key, source) :: attributes, ?_, .cons ⟨rfl, hvalue⟩ hof⟩
      have hname : key ∈ attributeNames := hnames key List.mem_cons_self
      simp [attributesOf?, hkey, hattributes, hname, lookup_eq_none hof hfresh]

/-- The values of attributes whose operator is written as a string. -/
theorem attributeValues?_eq_some
    (h : List.Forall₂ (AttributeOf (Source.maxDepth - 1)) attributes members)
    (hoperator : ∀ j, ("selectionComparison", j) ∈ members → ∃ s, j = .string s) :
    attributeValues? attributes = some (Json.sortedMembers members) := by
  induction h with
  | nil => rfl
  | @cons given m attributes members hhead _ ih =>
      obtain ⟨name, source⟩ := given
      obtain ⟨key, value⟩ := m
      obtain ⟨rfl, hvalue⟩ := hhead
      have hrest := ih fun j hj => hoperator j (List.mem_cons_of_mem _ hj)
      simp only at hvalue
      rw [attributeValues?, hvalue, hrest]
      · rfl
      · rintro first second rest rfl rfl
        obtain ⟨s, rfl⟩ := hoperator _ List.mem_cons_self
        obtain ⟨values, -, hstring⟩ := Option.map_eq_some_iff.mp hvalue
        contradiction

end Document

namespace Criterion

variable {c : Criterion}

/-- The text of a shaped criterion is decoded to what JSON makes of the criterion. -/
theorem Shaped.ofText_toText (h : c.Shaped) (hdepth : c.document.depth ≤ Json.Source.maxDepth)
    (hfloats : ∀ x, Json.number (.float x) ∈ c.document.within →
      Json.ofText? (Json.number (.float x)).text = some (.number (.float x))) :
    ofText c.toText = .ok c.carried := by
  obtain ⟨d, hreads, -, hdecodes⟩ := h.decodes
  have hnumbers : ∀ n, Json.number n ∈ c.document.within → n.Recovered := by
    intro n hn
    cases n with
    | integer n =>
        exact Json.recovered_integer (encoded_document c _ hn)
    | float x => exact Json.recovered_float (hfloats x hn)
  rw [document_eq] at hnumbers hdepth
  rw [Json.depth] at hdepth
  obtain ⟨sources, hread, hsources⟩ := Json.read?_text_object hnumbers
  -- The members are written in the order of their names, each once, so that reading them loses
  -- none.
  have hnames := names_members document c
  obtain ⟨attributes, hattributes, hof⟩ :=
    Document.attributesOf?_eq_some (hsources _ (Nat.le_sub_of_add_le hdepth))
      (fun name hname => List.mem_of_mem_take (hnames.subset hname))
      (hnames.nodup (by decide))
  have hvalues := Document.attributeValues?_eq_some hof fun j => operator_of_mem_members
  rw [sortedMembers_members (fun r _ => sorted_document r) (fun i _ => sorted_document i)
    fun p _ => sorted_document p] at hvalues
  have hdocument : Document.ofText? c.toText = some d := by
    rw [Document.ofText?, toText_eq, document_eq, hread]
    simp [hattributes, hvalues, show Document.ofMembers? _ = _ from hreads]
  rw [ofText, hdocument]
  exact hdecodes

/-! ## Built criteria -/

/-- A criterion that the building functions make of constants that JSON has literals for. Only a
constant has the operator of constants. -/
inductive Built : Criterion → Prop
  | fixed {op : Operator} (isFixed : op.isFixed = true) : (bare op).Built
  | test {op : Operator} {field : String} {right : Criterion} (not_constant : op.isConstant = false)
      (right_built : right.Built) : (test op field right).Built
  | any {field : String} {inner : Criterion} (inner_built : inner.Built) : (any field inner).Built
  | group {op : Operator} {parts : List Criterion}
      (joins : (op.isAggregate || op.isSum) = true) (parts_built : ∀ c ∈ parts, c.Built) :
      (group op parts).Built
  | constant {v : Value} (literal : v.Literal) : (constant v).Built

theorem Built.not (h : c.Built) : c.not.Built :=
  .group rfl (by simpa using h)

theorem Built.containedIn {field : String} {values : List Criterion} (h : ∀ v ∈ values, v.Built) :
    (containedIn field values).Built := by
  refine .group rfl fun c hc => ?_
  obtain ⟨v, hv, rfl⟩ := List.mem_map.mp hc
  exact .test rfl (h v hv)

theorem Built.between {field : String} {low high : Criterion} (hlow : low.Built)
    (hhigh : high.Built) : (between field low high).Built :=
  .group rfl (by simpa using ⟨.test rfl hlow, .test rfl hhigh⟩)

/-- A built criterion is settled. -/
theorem Built.settled (h : c.Built) : c.Settled := by
  induction h with
  | @fixed op hfixed =>
      refine settled_node ?_ nofun (absurd rfl) nofun nofun nofun
      cases op <;> first | rfl | contradiction
  | test hop _ ih =>
      refine settled_node ?_ nofun (absurd rfl) (by simpa using ih) nofun nofun
      rw [hop]
      rfl
  | any _ ih => exact settled_node rfl (fun _ => rfl) (absurd rfl) nofun (by simpa using ih) nofun
  | @group op parts hjoins _ ih =>
      refine settled_node ?_ nofun (fun _ => hjoins) nofun nofun ih
      cases op <;> first | rfl | contradiction
  | constant hliteral => exact settled_constant hliteral

/-- A criterion that was decoded from JSON, from a document of either version, or that was built
from literals is decoded from its encoding as itself. The encoding is of the second version
throughout. From its text it is decoded as itself when the text nests no deeper than is read and
every float in it is read back. -/
theorem criterion_survives_document
    (h : (∃ j : Json, j.Valid ∧ ofJson j = .ok c) ∨ c.Built) :
    ofJson c.toJson = .ok c ∧
      (∀ j ∈ [c.toJson, c.document], ∀ members, Json.object members ∈ j.within →
        "fieldValue" ∉ members.map Prod.fst) ∧
      (c.document.depth ≤ Json.Source.maxDepth →
        (∀ x, Json.number (.float x) ∈ c.document.within →
          Json.ofText? (Json.number (.float x)).text = some (.number (.float x))) →
        ofText c.toText = .ok c) := by
  have hsettled : c.Settled := by
    rcases h with ⟨j, hj, hdecoded⟩ | hbuilt
    · exact settled_of_ofJson hj hdecoded
    · exact hbuilt.settled
  refine ⟨?_, ?_, fun hdepth hfloats => ?_⟩
  · rw [hsettled.shaped.ofJson_toJson, hsettled.carried_eq]
  · intro j hj members hmembers
    have hencoded : ∀ i ∈ j.within, Encoded i := by
      rcases List.mem_pair.mp hj with rfl | rfl
      · exact encoded_json c
      · exact encoded_document c
    exact hencoded _ hmembers
  · rw [hsettled.shaped.ofText_toText hdepth hfloats, hsettled.carried_eq]

/-- A document of the first version asks for an order above one and a half. Its criterion survives
the document of the second version, the float included. -/
theorem costly_orders_survive_document :
    let price : Binary64 := .ofRatio false 3 2
    let legacy : Json :=
      .object [("selectionComparison", .string "Any"), ("fieldName", .string "orders"),
        ("innerCriteria",
          .object [("selectionComparison", .string "GreaterThan"), ("fieldName", .string "total"),
            ("fieldValue", .number (.float price))])]
    let costly : Criterion := .any "orders" (.test .greaterThan "total" (.constant (.float price)))
    ofJson legacy = .ok costly ∧ ofJson costly.toJson = .ok costly ∧
      ofText costly.toText = .ok costly := by
  intro price legacy costly
  have hdecoded : ofJson legacy = .ok costly := rfl
  have hfinite : price.isFinite = true := by decide +kernel
  have hvalid : legacy.Valid := by
    intro n hn
    have hn : n = .float price := by simpa [legacy, Json.within, Json.withinMembers] using hn
    rw [hn]
    exact hfinite
  have hprice : Json.ofText? (Json.number (.float price)).text = some (.number (.float price)) := by
    have htext : (Json.number (.float price)).text = "1.5" := by decide +kernel
    have hread : Json.Source.read? "1.5".toList =
        some (.number ⟨false, ['1'], some ['5'], none⟩) := rfl
    have hnumber :
        Json.Numeral.toNumber? ⟨false, ['1'], some ['5'], none⟩ = some (.float price) := by
      decide +kernel
    rw [htext, Json.ofText?, hread]
    simp [Json.Source.value?, hnumber]
  obtain ⟨hjson, -, htext⟩ := criterion_survives_document (.inl ⟨legacy, hvalid, hdecoded⟩)
  have hvalue : (Value.float price).toJson = .number (.float price) := by
    rw [Value.toJson, if_pos hfinite]
  have hdocument : costly.document =
      .object [("selectionComparison", .string "Any"), ("fieldName", .string "orders"),
        ("innerCriteria",
          .object [("selectionComparison", .string "GreaterThan"), ("fieldName", .string "total"),
            ("rightHandSide",
              .object [("selectionComparison", .string "Constant"),
                ("constantValue", .number (.float price))])])] := by
    simp [costly, document_eq, members, member, any, test, constant, Operator.name, hvalue]
  refine ⟨hdecoded, hjson, htext ?_ fun x hx => ?_⟩
  · have hdepth : costly.document.depth = 3 := by
      rw [hdocument]
      rfl
    rw [hdepth]
    decide
  · have hx : x = price := by
      rw [hdocument] at hx
      simpa [Json.within, Json.withinMembers] using hx
    rw [hx, hprice]

end Criterion

end Selection
