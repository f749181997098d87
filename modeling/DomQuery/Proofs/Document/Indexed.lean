import DomQuery.Proofs.Document.Change

/-!
# Indices that are in step

An index is exact when it holds an element under just the keys that the element
has: its id, the words of its class, its name. A change of an attribute takes
the element from under the old keys and enters it under the new ones, so the
indices stay exact whatever is written.

* `Entries.Exact.rekey`: what an update does to one index.
* `Indexed.change`: no change of a document puts the indices out of step.
-/

namespace DomQuery.Document

open DomQuery.Text DomQuery.Tree

variable {m n : NodeId}

/-! ### Entries -/

namespace Entries

variable {entries : Entries} {k : String} {keys : List String}

theorem mem_add {key : String} :
    (k, m) ∈ entries.add n key ↔ (k, m) ∈ entries ∨ m = n ∧ k = key := by
  unfold add
  split
  · rename_i h
    have h : (key, n) ∈ entries := by simpa using h
    refine ⟨.inl, ?_⟩
    rintro (hk | ⟨rfl, rfl⟩)
    · exact hk
    · exact h
  · rw [List.mem_cons, Prod.mk.injEq, or_comm, and_comm]

theorem nodup_add (h : entries.Nodup) (key : String) : (entries.add n key).Nodup := by
  unfold add
  split
  · exact h
  · rename_i hn
    exact List.nodup_cons.mpr ⟨by simpa using hn, h⟩

theorem mem_erase {key : String} :
    (k, m) ∈ entries.erase n key ↔ (k, m) ∈ entries ∧ ¬ (m = n ∧ k = key) := by
  unfold erase
  rw [List.mem_filter, bne_iff_ne, ne_eq, Prod.mk.injEq, and_comm (b := m = n)]

theorem mem_foldl_add :
    (k, m) ∈ keys.foldl (Entries.add n) entries ↔ (k, m) ∈ entries ∨ m = n ∧ k ∈ keys := by
  induction keys generalizing entries with
  | nil => simp
  | cons key keys ih => rw [List.foldl_cons, ih, mem_add, List.mem_cons, and_or_left, or_assoc]

theorem mem_foldl_erase :
    (k, m) ∈ keys.foldl (Entries.erase n) entries ↔ (k, m) ∈ entries ∧ ¬ (m = n ∧ k ∈ keys) := by
  induction keys generalizing entries with
  | nil => simp
  | cons key keys ih =>
    rw [List.foldl_cons, ih, mem_erase, List.mem_cons, and_or_left, not_or, and_assoc]

theorem nodup_foldl_add (h : entries.Nodup) : (keys.foldl (Entries.add n) entries).Nodup := by
  induction keys generalizing entries with
  | nil => exact h
  | cons key keys ih => exact ih (nodup_add h key)

theorem nodup_foldl_erase (h : entries.Nodup) : (keys.foldl (Entries.erase n) entries).Nodup := by
  induction keys generalizing entries with
  | nil => exact h
  | cons key keys ih => exact ih (h.filter _)

theorem mem_find : n ∈ entries.find k ↔ (k, n) ∈ entries := by
  unfold find
  rw [List.mem_filterMap]
  constructor
  · rintro ⟨⟨key, m⟩, hm, h⟩
    split at h
    · rename_i hk
      obtain rfl : key = k := by simpa using hk
      obtain rfl : m = n := by simpa using h
      exact hm
    · cases h
  · intro h
    exact ⟨(k, n), h, by simp⟩

theorem nodup_find (h : entries.Nodup) (k : String) : (entries.find k).Nodup := by
  refine List.Nodup.filterMap ?_ h
  rintro ⟨a, x⟩ ⟨b, y⟩ z hx hy
  simp only [Option.mem_def, beq_iff_eq, Option.ite_none_right_eq_some, Option.some.injEq] at hx hy
  obtain ⟨rfl, rfl⟩ := hx
  obtain ⟨rfl, rfl⟩ := hy
  rfl

/-- The entries are the keys of the nodes, each once. -/
structure Exact (entries : Entries) (keys : NodeId → List String) : Prop where
  nodup : entries.Nodup
  mem_iff : ∀ {k n}, (k, n) ∈ entries ↔ k ∈ keys n

namespace Exact

variable {before after : NodeId → List String}

theorem congr (h : entries.Exact before) (hk : ∀ n, after n = before n) :
    entries.Exact after := by
  obtain rfl : after = before := funext hk
  exact h

theorem nil (h : ∀ n, after n = []) : Exact [] after :=
  ⟨.nil, by simp [h]⟩

/-- A node is taken from under its old keys and entered under its new ones. -/
theorem rekey (h : entries.Exact before) (old new : List String) (hold : before n ⊆ old)
    (hnew : after n = new) (hothers : ∀ m, m ≠ n → after m = before m) :
    (new.foldl (Entries.add n) (old.foldl (Entries.erase n) entries)).Exact after where
  nodup := nodup_foldl_add (nodup_foldl_erase h.nodup)
  mem_iff := by
    intro k m
    rw [mem_foldl_add, mem_foldl_erase, h.mem_iff]
    by_cases hm : m = n
    · subst hm
      rw [hnew]
      simp only [true_and]
      refine ⟨fun hk => hk.elim (fun ⟨hk, hno⟩ => absurd (hold hk) hno) id, .inr⟩
    · rw [hothers m hm]
      simp [hm]

end Exact

end Entries

/-! ### Attributes -/

theorem valueOf?_cons {a : Attribute} {rest : List Attribute} {name : String} :
    valueOf? (a :: rest) name = if a.name = name then some a.value else valueOf? rest name := by
  unfold valueOf?
  rw [List.find?_cons]
  cases h : a.name == name
  · rw [if_neg (by simpa using h)]
  · rw [if_pos (by simpa using h)]
    rfl

theorem valueOf?_eq_none {attributes : List Attribute} {name : String} :
    valueOf? attributes name = none ↔ name ∉ attributes.map Attribute.name := by
  unfold valueOf?
  rw [Option.map_eq_none_iff, List.find?_eq_none]
  simp only [List.mem_map, not_exists, not_and, beq_iff_eq]

theorem mem_names_writeIn {a : Attribute} {attributes : List Attribute} {name : String} :
    name ∈ (writeIn a attributes).map Attribute.name ↔
      name = a.name ∨ name ∈ attributes.map Attribute.name := by
  induction attributes with
  | nil => simp [writeIn]
  | cons b rest ih =>
    rw [writeIn]
    split
    · rename_i hb
      have hb : b.name = a.name := by simpa using hb
      simp [hb]
    · rw [List.map_cons, List.mem_cons, ih, List.map_cons, List.mem_cons, or_left_comm]

namespace Rewrites

variable {attributes attributes' : List Attribute} {name : String} {value : Option String}

theorem nodup (h : Rewrites attributes name value attributes')
    (hn : (attributes.map Attribute.name).Nodup) : (attributes'.map Attribute.name).Nodup := by
  cases h with
  | write a =>
    induction attributes with
    | nil => simp [writeIn]
    | cons b rest ih =>
      obtain ⟨hb, hrest⟩ := List.nodup_cons.mp hn
      rw [writeIn]
      split
      · rename_i he
        have he : b.name = a.name := by simpa using he
        exact List.nodup_cons.mpr ⟨he ▸ hb, hrest⟩
      · rename_i he
        refine List.nodup_cons.mpr ⟨fun hm => ?_, ih hrest⟩
        rcases mem_names_writeIn.mp hm with hm | hm
        · exact he (by simp [hm])
        · exact hb hm
  | erase => exact hn.sublist ((List.eraseP_sublist ..).map _)

/-- Only the value that is written or erased changes. -/
theorem valueOf?_eq (h : Rewrites attributes name value attributes')
    (hn : (attributes.map Attribute.name).Nodup) (name' : String) :
    valueOf? attributes' name' = if name' = name then value else valueOf? attributes name' := by
  cases h with
  | write a =>
    clear hn
    induction attributes with
    | nil => simp [writeIn, valueOf?_cons, eq_comm]
    | cons b rest ih =>
      rw [writeIn]
      split
      · rename_i he
        have he : b.name = a.name := by simpa using he
        simp only [valueOf?_cons, he, eq_comm]
        split <;> rfl
      · rename_i he
        have he : b.name ≠ a.name := by simpa using he
        simp only [valueOf?_cons, ih]
        by_cases hb : b.name = name'
        · subst hb
          simp [he]
        · simp [hb]
  | erase =>
    induction attributes with
    | nil => simp [valueOf?]
    | cons b rest ih =>
      obtain ⟨hb, hrest⟩ := List.nodup_cons.mp hn
      by_cases he : b.name = name
      · rw [List.eraseP_cons_of_pos (by simpa using he), valueOf?_cons, he]
        by_cases hname : name' = name
        · subst hname
          rw [if_pos rfl, valueOf?_eq_none, ← he]
          exact hb
        · rw [if_neg hname, if_neg (Ne.symm hname)]
      · rw [List.eraseP_cons_of_neg (by simpa using he), valueOf?_cons, valueOf?_cons, ih hrest]
        by_cases hb : b.name = name'
        · subst hb
          simp [he]
        · simp [hb]

end Rewrites

/-! ### Elements -/

variable {d d' : Document}

/-- What the indices know of an element: its name and its attributes. -/
def profile? (d : Document) (n : NodeId) : Option (String × List Attribute) :=
  (d.element? n).map fun e => (e.localName, e.attributes)

/-- The value of the attribute that an element keeps under `name`. -/
def kept? (d : Document) (n : NodeId) (name : String) : Option String :=
  (d.profile? n).bind fun profile => valueOf? profile.2 name

/-- The id of a node, unless it is empty. -/
def idKeys (d : Document) (n : NodeId) : List String :=
  (d.kept? n "id").toList.filter (· != "")

def classKeys (d : Document) (n : NodeId) : List String :=
  words ((d.kept? n "class").getD "")

def nameKeys (d : Document) (n : NodeId) : List String :=
  ((d.profile? n).map Prod.fst).toList

theorem profile?_of_data? (h : d'.data? n = d.data? n) : d'.profile? n = d.profile? n := by
  rw [profile?, profile?, element?, element?, h]

theorem profile?_of_element {e : Element} (h : d.data? n = some (.element e)) :
    d.profile? n = some (e.localName, e.attributes) := by
  simp [profile?, element?, h, NodeData.element?]

/-- A node that is changed shows its own profile, and the others keep theirs. -/
theorem profile?_modifyNode {f : Node → Node} :
    (d.modifyNode n f).profile? m =
      if m = n then (((d.node? n).map f).bind fun node => node.data.element?).map
        fun e => (e.localName, e.attributes)
      else d.profile? m := by
  split
  · rename_i h
    subst h
    simp only [profile?, element?, data?, node?_modifyNode, if_true]
    cases d.node? m <;> rfl
  · rename_i h
    exact profile?_of_data? (data?_of_node? (by rw [node?_modifyNode, if_neg h]))

theorem profile?_modifyNode_of_element {f : Node → Node}
    (h : ∀ node, d.node? n = some node →
      (f node).data.element?.map (fun e => (e.localName, e.attributes)) =
        node.data.element?.map fun e => (e.localName, e.attributes)) :
    (d.modifyNode n f).profile? m = d.profile? m := by
  rw [profile?_modifyNode]
  split
  · rename_i hm
    subst hm
    rw [profile?, element?, data?]
    cases hn : d.node? m with
    | none => rfl
    | some node => simpa using h node hn
  · rfl

theorem profile?_addNode (data : NodeData) :
    (d.addNode data).2.profile? m =
      if m = ⟨d.nodes.size⟩ then data.element?.map fun e => (e.localName, e.attributes)
      else d.profile? m := by
  split
  · rename_i h
    simp only [profile?, element?, data?, node?_addNode, if_pos h]
    rfl
  · rename_i h
    exact profile?_of_data? (data?_of_node? (by rw [node?_addNode, if_neg h]))

theorem profile?_size : d.profile? ⟨d.nodes.size⟩ = none := by
  simp [profile?, element?, data?, node?_size]

/-- A new node that is no element shows no profile. -/
theorem profile?_addNode_of_none {data : NodeData} (h : data.element? = none) :
    (d.addNode data).2.profile? m = d.profile? m := by
  rw [profile?_addNode]
  split
  · rename_i hm
    rw [hm, profile?_size, h]
    rfl
  · rfl

/-! ### Written attributes -/

section Rewritten

variable {e : Element} {name : String} {value : Option String} {attributes : List Attribute}

/-- The document after the attributes of an element were written, and its indices
updated for the one that changed. -/
def rewritten (d : Document) (n : NodeId) (e : Element) (name : String) (value : Option String)
    (attributes : List Attribute) : Document :=
  { d.modifyNode n fun node => { node with data := .element { e with attributes := attributes } } with
    index := d.index.update n name (valueOf? e.attributes name) value }

theorem profile?_rewritten (hn : d.data? n = some (.element e)) :
    (d.rewritten n e name value attributes).profile? m =
      if m = n then some (e.localName, attributes) else d.profile? m := by
  refine profile?_modifyNode.trans ?_
  split
  · rename_i hm
    obtain ⟨node, hnode, -⟩ := Option.map_eq_some_iff.mp hn
    rw [hnode]
    rfl
  · rfl

/-- One attribute of one element is another, and all the others are the same. -/
theorem kept?_rewritten (hn : d.data? n = some (.element e))
    (hnodup : (e.attributes.map Attribute.name).Nodup)
    (hr : Rewrites e.attributes name value attributes) {name' : String} :
    (d.rewritten n e name value attributes).kept? m name' =
      if m = n ∧ name' = name then value else d.kept? m name' := by
  rw [kept?, kept?, profile?_rewritten hn]
  by_cases hm : m = n
  · rw [if_pos hm, hm, profile?_of_element hn, Option.bind_some, hr.valueOf?_eq hnodup]
    simp
  · rw [if_neg hm, if_neg fun h => hm h.1]

end Rewritten

/-! ### Documents -/

/-- The indices are in step with the elements, which have each attribute once. -/
structure Indexed (d : Document) : Prop where
  ids : d.index.ids.Exact d.idKeys
  classes : d.index.classes.Exact d.classKeys
  names : d.index.names.Exact d.nameKeys
  nodup_attributes : ∀ n profile, d.profile? n = some profile →
    (profile.2.map Attribute.name).Nodup

namespace Indexed

theorem empty (contentType : ContentType) : (Document.empty contentType).Indexed := by
  have hp : ∀ n, (Document.empty contentType).profile? n = none := by
    intro n
    rw [profile?, element?, data?, node?_empty]
    split <;> rfl
  refine ⟨.nil fun n => ?_, .nil fun n => ?_, .nil fun n => ?_, by simp [hp]⟩
  · simp [idKeys, kept?, hp]
  · simp [classKeys, kept?, hp, words, wordsOf, cut]
  · simp [nameKeys, hp]

/-- The indices stay in step where the elements and the indices are as before. -/
theorem congr (h : d.Indexed) (hp : ∀ n, d'.profile? n = d.profile? n)
    (hi : d'.index = d.index) : d'.Indexed where
  ids := hi ▸ h.ids.congr fun n => by simp only [idKeys, kept?, hp]
  classes := hi ▸ h.classes.congr fun n => by simp only [classKeys, kept?, hp]
  names := hi ▸ h.names.congr fun n => by simp only [nameKeys, hp]
  nodup_attributes n profile hn := h.nodup_attributes n profile (hp n ▸ hn)

/-- A new element is entered under its name. -/
theorem createElement (h : d.Indexed) (localName : String) (ns nsPrefix : Option String) :
    Indexed { (d.addNode (.element { localName, ns, nsPrefix })).2 with
      index := d.index.addElement ⟨d.nodes.size⟩ localName } := by
  set d' : Document := { (d.addNode (.element { localName, ns, nsPrefix })).2 with
    index := d.index.addElement ⟨d.nodes.size⟩ localName }
  have hp : ∀ m, d'.profile? m =
      if m = ⟨d.nodes.size⟩ then some (localName, []) else d.profile? m := by
    intro m
    exact profile?_addNode _
  have hkept : ∀ m name, d'.kept? m name = d.kept? m name := by
    intro m name
    rw [kept?, kept?, hp]
    split
    · rename_i hm
      rw [hm, profile?_size]
      rfl
    · rfl
  refine ⟨h.ids.congr fun m => ?_, h.classes.congr fun m => ?_, ?_, fun m profile hm => ?_⟩
  · rw [idKeys, idKeys, hkept]
  · rw [classKeys, classKeys, hkept]
  · have hnone : d.nameKeys ⟨d.nodes.size⟩ = [] := by simp [nameKeys, profile?_size]
    refine h.names.rekey [] [localName] (by simp [hnone]) ?_ fun m hm => ?_
    · rw [nameKeys, hp, if_pos rfl]
      rfl
    · rw [nameKeys, hp, if_neg hm, nameKeys]
  · rw [hp] at hm
    split at hm
    · obtain rfl : _ = profile := by simpa using hm
      exact .nil
    · exact h.nodup_attributes m profile hm

section Update

variable {index : Index} {name : String} {old new : Option String}
variable {before after : NodeId → List String}

/-- The index of ids follows an attribute from one value to another. -/
theorem exact_ids_update (h : index.ids.Exact before)
    (hid : name = "id" → before n ⊆ old.toList ∧ after n = new.toList.filter (· != ""))
    (hothers : ∀ m, m ≠ n ∨ name ≠ "id" → after m = before m) :
    (index.update n name old new).ids.Exact after := by
  unfold Index.update
  split
  · obtain ⟨hold, hnew⟩ := hid rfl
    exact h.rekey _ _ hold hnew fun m hm => hothers m (.inl hm)
  · exact h.congr fun m => hothers m (.inr (by simp))
  · rename_i hid _
    exact h.congr fun m => hothers m (.inr hid)

/-- The index of classes does the same. -/
theorem exact_classes_update (h : index.classes.Exact before)
    (hclass : name = "class" → before n ⊆ words (old.getD "") ∧ after n = words (new.getD ""))
    (hothers : ∀ m, m ≠ n ∨ name ≠ "class" → after m = before m) :
    (index.update n name old new).classes.Exact after := by
  unfold Index.update
  split
  · exact h.congr fun m => hothers m (.inr (by simp))
  · obtain ⟨hold, hnew⟩ := hclass rfl
    exact h.rekey _ _ hold hnew fun m hm => hothers m (.inl hm)
  · rename_i _ hclass
    exact h.congr fun m => hothers m (.inr hclass)

theorem names_update : (index.update n name old new).names = index.names := by
  unfold Index.update
  split <;> rfl

end Update

section Rewrite

variable {e : Element} {name : String} {value : Option String} {attributes : List Attribute}

theorem rewrite (h : d.Indexed) (hn : d.data? n = some (.element e))
    (hr : Rewrites e.attributes name value attributes) :
    (d.rewritten n e name value attributes).Indexed := by
  have he : d.profile? n = some (e.localName, e.attributes) := profile?_of_element hn
  have hnodup := h.nodup_attributes n _ he
  have hold : d.kept? n name = valueOf? e.attributes name := by
    rw [kept?, he]
    rfl
  have hnew : (d.rewritten n e name value attributes).kept? n name = value := by
    rw [kept?_rewritten hn hnodup hr, if_pos ⟨rfl, rfl⟩]
  have hother : ∀ m name', m ≠ n ∨ name ≠ name' →
      (d.rewritten n e name value attributes).kept? m name' = d.kept? m name' := by
    intro m name' hm
    rw [kept?_rewritten hn hnodup hr, if_neg]
    rintro ⟨rfl, rfl⟩
    simp at hm
  refine ⟨exact_ids_update h.ids ?_ fun m hm => ?_, exact_classes_update h.classes ?_ fun m hm => ?_,
    ?_, fun m profile hm => ?_⟩
  · rintro rfl
    rw [idKeys, idKeys, hold, hnew]
    exact ⟨List.filter_sublist.subset, rfl⟩
  · rw [idKeys, idKeys, hother m _ hm]
  · rintro rfl
    rw [classKeys, classKeys, hold, hnew]
    exact ⟨List.Subset.refl _, rfl⟩
  · rw [classKeys, classKeys, hother m _ hm]
  · have hnames : (d.rewritten n e name value attributes).index.names = d.index.names :=
      names_update
    rw [hnames]
    refine h.names.congr fun m => ?_
    rw [nameKeys, nameKeys, profile?_rewritten hn]
    split
    · rename_i hm
      rw [hm, he]
      rfl
    · rfl
  · rw [profile?_rewritten hn] at hm
    split at hm
    · obtain rfl : _ = profile := by simpa using hm
      exact hr.nodup hnodup
    · exact h.nodup_attributes m profile hm

end Rewrite

/-- No change puts the indices out of step. -/
theorem alteration (h : d.Indexed) (ha : Alteration d d') : d'.Indexed := by
  cases ha with
  | create data hk he hs =>
    refine h.congr (fun m => ?_) rfl
    exact profile?_addNode_of_none (by cases data <;> simp_all [NodeData.element?, NodeData.kind])
  | createElement localName ns nsPrefix => exact h.createElement localName ns nsPrefix
  | detach n => exact h.congr (fun m => profile?_of_data? data?_detach) index_detach
  | rewrite hn hr => exact h.rewrite hn hr
  | modifyElement hn hname hns hpre hattributes hshadow =>
    refine h.congr (fun m => profile?_modifyNode_of_element fun node hnode => ?_) rfl
    simp only [data?, hnode, Option.map_some, Option.some.injEq] at hn
    simp [hn, NodeData.element?, hname, hattributes]
  | @attachShadow host e mode hn hnone =>
    refine h.congr (fun m => ?_) rfl
    refine (profile?_modifyNode_of_element fun node hnode => ?_).trans (profile?_addNode_of_none rfl)
    have hdata : (d.addNode (.fragment (some (host, mode)))).2.data? host = some (.element e) :=
      data?_addNode_of_some hn
    simp only [data?, hnode, Option.map_some, Option.some.injEq] at hdata
    simp [hdata, NodeData.element?]
  | extendText n text =>
    refine h.congr (fun m => profile?_modifyNode_of_element fun node hnode => ?_) rfl
    split <;> simp_all [NodeData.element?]
  | settings => exact h.congr (fun _ => rfl) rfl

theorem change (h : d.Indexed) (hc : Change d d') : d'.Indexed := by
  cases hc with
  | alter ha => exact h.alteration ha
  | link => exact h.congr (fun m => profile?_of_data? data?_link) rfl

end Indexed

end DomQuery.Document
