import DomQuery.Proofs.Document.Linked

/-!
# What an operation does

Operations check what they are asked for and then change the document in one or
two steps. There are few kinds of such steps: a node is put below another one, or
something else is altered (`Alteration`, `Change`). So what is kept by every
change is kept by every operation.

* `changes_apply`: whatever an operation does, it does by changes.
* `alterations_apply`: operations that do not move nodes put none anywhere.
-/

namespace DomQuery.Document

open DomQuery.Tree

variable {d d' : Document} {m n p : NodeId}

/-- The attribute called `name` gets a value or loses the one it has. -/
inductive Rewrites (attributes : List Attribute) : String → Option String → List Attribute → Prop
  | write (a : Attribute) : Rewrites attributes a.name (some a.value) (writeIn a attributes)
  | erase (name : String) :
      Rewrites attributes name none (attributes.eraseP fun a => a.name == name)

/-- A step that changes a document and puts no node anywhere. -/
inductive Alteration (d : Document) : Document → Prop
  | create (data : NodeData) (hk : data.kind ≠ .document) (he : data.kind ≠ .element)
      (hs : ∀ shadow, data ≠ .fragment (some shadow)) : Alteration d (d.addNode data).2
  | createElement (localName : String) (ns nsPrefix : Option String) :
      Alteration d { (d.addNode (.element { localName, ns, nsPrefix })).2 with
        index := d.index.addElement ⟨d.nodes.size⟩ localName }
  | detach (n : NodeId) : Alteration d (d.detach n)
  | rewrite {n : NodeId} {e : Element} {name : String} {value : Option String}
      {attributes : List Attribute} (hn : d.data? n = some (.element e))
      (h : Rewrites e.attributes name value attributes) :
      Alteration d { d.modifyNode n fun node =>
          { node with data := .element { e with attributes := attributes } } with
        index := d.index.update n name (valueOf? e.attributes name) value }
  | modifyElement {n : NodeId} {e e' : Element} (hn : d.data? n = some (.element e))
      (hname : e'.localName = e.localName) (hns : e'.ns = e.ns) (hpre : e'.nsPrefix = e.nsPrefix)
      (hattributes : e'.attributes = e.attributes) (hshadow : e'.shadowRoot = e.shadowRoot) :
      Alteration d (d.modifyNode n fun node => { node with data := .element e' })
  /-- A shadow root is created and given to its host at once. -/
  | attachShadow {host : NodeId} {e : Element} (mode : ShadowMode)
      (hn : d.data? host = some (.element e)) (hnone : e.shadowRoot = none) :
      Alteration d ((d.addNode (.fragment (some (host, mode)))).2.modifyNode host fun node =>
        { node with data := .element { e with shadowRoot := some ⟨d.nodes.size⟩ } })
  | extendText (n : NodeId) (text : String) : Alteration d (d.extendText n text)
  | settings (fragment : Option String) (focused : Option NodeId) (defined : List String) :
      Alteration d { d with fragment, focused, defined }

/-- A step that changes a document. -/
inductive Change (d : Document) : Document → Prop
  | alter {d' : Document} (h : Alteration d d') : Change d d'
  | link {p n : NodeId} {data : NodeData} {place : List NodeId → List NodeId}
      (hp : d.data? p = some data) (hc : data.isContainer = true)
      (hn : (d.node? n).isSome = true) (hnone : d.parent n = none)
      (hw : ¬ d.links.Within n p)
      (hplace : (place (d.children p)).Perm (n :: d.children p)) : Change d (d.link p n place)

/-- Any number of steps that put no node anywhere. -/
abbrev Alterations : Document → Document → Prop :=
  Relation.ReflTransGen Alteration

/-- Any number of steps. -/
abbrev Changes : Document → Document → Prop :=
  Relation.ReflTransGen Change

theorem Alterations.changes (h : Alterations d d') : Changes d d' :=
  Relation.ReflTransGen.mono (fun _ _ ha => .alter ha) d d' h

/-! ### Steps of an edit -/

section Edit

variable {α β : Type}

theorem after_throw_bind (e : DocumentError) (f : α → Edit β) :
    d.after ((throw e : Edit α) >>= f) = d :=
  rfl

theorem after_get_bind (f : Document → Edit β) : d.after (get >>= f) = d.after (f d) :=
  rfl

theorem after_modify_bind (g : Document → Document) (f : PUnit → Edit β) :
    d.after (modify g >>= f) = (g d).after (f ⟨⟩) :=
  rfl

theorem after_createNode_bind (data : NodeData) (f : NodeId → Edit β) :
    d.after ((createNode data : Edit NodeId) >>= f) = (d.addNode data).2.after (f ⟨d.nodes.size⟩) :=
  rfl

theorem after_requireContainer (f : Unit → Edit β) :
    d.after (requireContainer p >>= f) =
      if (d.data? p).any NodeData.isContainer = true then d.after (f ()) else d := by
  unfold requireContainer
  rw [bind_assoc, after_get_bind]
  cases d.data? p with
  | none => rfl
  | some data => cases hc : data.isContainer <;> simp only [hc, Option.any_some] <;> rfl

theorem after_requireNode (f : Unit → Edit β) :
    d.after (requireNode n >>= f) = if (d.node? n).isSome = true then d.after (f ()) else d := by
  unfold requireNode
  rw [bind_assoc, after_get_bind]
  cases d.node? n <;> rfl

/-- An element that is asked for is changed, and the edit goes on with what it
was before. -/
theorem after_modifyElement (g : Element → Element) (f : Element → Edit β) :
    d.after (modifyElement n g >>= f) = match d.data? n with
      | some (.element e) =>
        (d.modifyNode n fun node => { node with data := .element (g e) }).after (f e)
      | _ => d := by
  unfold modifyElement
  rw [bind_assoc, after_get_bind]
  rcases d.data? n with _ | (_ | _ | e | _ | _ | _) <;> rfl

theorem after_discard_modifyElement (g : Element → Element) (f : Unit → Edit β) :
    d.after (discard (modifyElement n g) >>= f) = match d.data? n with
      | some (.element e) =>
        (d.modifyNode n fun node => { node with data := .element (g e) }).after (f ())
      | _ => d := by
  have hd : (discard (modifyElement n g) : Edit Unit) = modifyElement n g >>= fun _ => pure () := rfl
  rw [hd, bind_assoc, after_modifyElement]
  rfl

theorem alterations_bind {x : Edit α} {f : α → Edit β} (hx : Alterations d (d.after x))
    (hf : ∀ a d', Alterations d' (d'.after (f a))) : Alterations d (d.after (x >>= f)) := by
  rw [after_bind]
  unfold after at hx
  rcases hr : x.run.run d with ⟨e | a, d'⟩ <;> rw [hr] at hx
  · exact hx
  · exact hx.trans (hf a d')

end Edit

/-! ### Creation -/

theorem alterations_createNode {data : NodeData} (hk : data.kind ≠ .document)
    (he : data.kind ≠ .element) (hs : ∀ shadow, data ≠ .fragment (some shadow)) :
    Alterations d (d.after (createNode data)) :=
  .single (.create data hk he hs)

theorem alterations_createElementNode (localName : String) (ns nsPrefix : Option String) :
    Alterations d (d.after (createElementNode localName ns nsPrefix)) :=
  .single (.createElement localName ns nsPrefix)

theorem alterations_createElement (name : String) : Alterations d (d.after (createElement name)) := by
  -- the kind of document is read off the document, so its fields are laid open
  obtain ⟨contentType, nodes, fragment, focused, defined, index⟩ := d
  cases contentType with
  | html => exact alterations_createElementNode (Text.lower name) (some Tree.htmlNamespace) none
  | xml => exact alterations_createElementNode name none none

/-! ### Insertion -/

theorem any_isContainer {data? : Option NodeData}
    (h : data?.any NodeData.isContainer = true) :
    ∃ data, data? = some data ∧ data.isContainer = true := by
  cases data? with
  | none => cases h
  | some data => exact ⟨data, rfl, h⟩

theorem placeBefore_perm {reference : NodeId} {nodes : List NodeId} (h : reference ∈ nodes) :
    (placeBefore reference n nodes).Perm (n :: nodes) := by
  induction nodes with
  | nil => cases h
  | cons m rest ih =>
    rw [placeBefore]
    split
    · exact .refl _
    · rename_i hm
      refine ((ih ?_).cons m).trans (.swap n m rest)
      exact (List.mem_cons.mp h).resolve_left (Ne.symm hm)

/-- Where no cycle was found there is none. -/
theorem Linked.not_within (h : d.Linked) (hw : ¬ d.isWithin n m = true) : ¬ d.links.Within n m :=
  fun hnm => hw (h.isForest.contains_iff.mpr hnm)

/-- The place of a move is inside of `p`. -/
theorem changes_move (h : d.Linked) {anchor : NodeId} {place : List NodeId → List NodeId}
    {toItself toDescendant : DocumentError} (hanchor : d.links.Within p anchor)
    (hplace : anchor ≠ n →
      (place ((d.detach n).children p)).Perm (n :: (d.detach n).children p)) :
    Changes d (d.after (move p n anchor place toItself toDescendant)) := by
  unfold move
  rw [after_requireContainer]
  split
  · rename_i hc
    obtain ⟨data, hp, hc⟩ := any_isContainer hc
    rw [after_requireNode]
    split
    · rename_i hn
      refine .head (.alter (.detach n)) ?_
      rw [after_modify_bind]
      split
      · exact .refl
      · rename_i hne
        dsimp only
        rw [after_get_bind]
        split
        · exact .refl
        · rename_i hw
          have hw := mt h.within_detach.mpr ((h.detach n).not_within hw)
          refine .single (.link (data?_detach.trans hp) hc ?_ ?_ (fun hnp => ?_) (hplace hne))
          · rw [isSome_node?_detach, hn]
          · rw [parent_detach, if_pos rfl]
          · exact hw ((h.within_detach.mp hnp).trans hanchor)
    · exact .refl
  · exact .refl

theorem changes_append (h : d.Linked) (p child : NodeId) :
    Changes d (d.after (append p child)) :=
  changes_move h (.refl p) fun _ => List.perm_append_singleton _ _

theorem changes_insertBefore (h : d.Linked) (reference n : NodeId) :
    Changes d (d.after (insertBefore reference n)) := by
  unfold insertBefore
  rw [after_get_bind]
  cases hr : d.parent reference with
  | none => exact .refl
  | some p =>
    refine changes_move h (Links.below_of_parent hr).within fun hne => ?_
    refine placeBefore_perm ((h.detach n).mem_children.mpr ?_)
    rw [parent_detach, if_neg hne, hr]

/-! ### Attributes and state -/

theorem alterations_writeAttribute (n : NodeId) (a : Attribute) :
    Alterations d (d.after (writeAttribute n a)) := by
  unfold writeAttribute
  rw [after_modifyElement]
  split
  · rename_i e he
    exact .single (.rewrite he (.write a))
  · exact .refl

theorem alterations_setAttribute (n : NodeId) (name value : String) :
    Alterations d (d.after (setAttribute n name value)) := by
  unfold setAttribute
  rw [after_get_bind]
  exact alterations_writeAttribute n _

theorem alterations_removeAttribute (n : NodeId) (name : String) :
    Alterations d (d.after (removeAttribute n name)) := by
  unfold removeAttribute
  rw [after_get_bind]
  dsimp only
  rw [after_modifyElement]
  split
  · rename_i e he
    exact .single (.rewrite he (.erase _))
  · exact .refl

theorem alterations_addMissingAttributes (n : NodeId) (attributes : List Attribute) :
    Alterations d (d.after (addMissingAttributes n attributes)) := by
  unfold addMissingAttributes
  induction attributes generalizing d with
  | nil => exact .refl
  | cons a attributes ih =>
    refine alterations_bind ?_ fun _ _ => ih
    rw [after_get_bind]
    dsimp only
    split
    · exact .refl
    · exact alterations_writeAttribute n a

section Keeps

variable {g : Element → Element}

/-- An element is changed in what is neither a name, nor an attribute, nor its
shadow root. -/
def Keeps (g : Element → Element) : Prop :=
  ∀ e, (g e).localName = e.localName ∧ (g e).ns = e.ns ∧ (g e).nsPrefix = e.nsPrefix ∧
    (g e).attributes = e.attributes ∧ (g e).shadowRoot = e.shadowRoot

theorem alterations_modifyElement (hg : Keeps g) (n : NodeId) :
    Alterations d (d.after (discard (modifyElement n g))) := by
  rw [← bind_pure (discard (modifyElement n g)), after_discard_modifyElement]
  split
  · rename_i e he
    obtain ⟨hname, hns, hpre, hattributes, hshadow⟩ := hg e
    exact .single (.modifyElement he hname hns hpre hattributes hshadow)
  · exact .refl

end Keeps

theorem alterations_modifyState (n : NodeId) (f : ControlState → ControlState) :
    Alterations d (d.after (modifyState n f)) := by
  refine alterations_modifyElement ?_ n
  exact fun _ => ⟨rfl, rfl, rfl, rfl, rfl⟩

/-! ### Fragments that belong to elements -/

/-- An element without a shadow root gets one; nothing else happens. -/
theorem after_attachShadow (host : NodeId) (mode : ShadowMode) :
    d.after (attachShadow host mode) = match d.data? host with
      | some (.element e) =>
        if e.shadowRoot.isNone = true then
          (d.addNode (.fragment (some (host, mode)))).2.modifyNode host fun node =>
            { node with data := .element { e with shadowRoot := some ⟨d.nodes.size⟩ } }
        else d
      | _ => d := by
  unfold attachShadow
  rw [after_get_bind, element?]
  rcases hd : d.data? host with _ | (_ | _ | e | _ | _ | _)
  case some.element =>
    simp only [Option.bind_some, NodeData.element?, Option.any_some]
    by_cases hnone : e.shadowRoot.isNone = true
    · simp only [hnone, if_true]
      have hhost : (d.addNode (.fragment (some (host, mode)))).2.data? host = some (.element e) :=
        data?_addNode_of_some hd
      rw [after_createNode_bind, after_discard_modifyElement, hhost]
      rfl
    · simp only [hnone]
      exact after_throw_bind _ _
  all_goals rfl

theorem alterations_attachShadow (host : NodeId) (mode : ShadowMode) :
    Alterations d (d.after (attachShadow host mode)) := by
  rw [after_attachShadow]
  split
  · rename_i e he
    split
    · rename_i hnone
      exact .single (.attachShadow mode he (Option.isNone_iff_eq_none.mp hnone))
    · exact .refl
  · exact .refl

theorem alterations_ensureContents (template : NodeId) :
    Alterations d (d.after (ensureContents template)) := by
  unfold ensureContents
  rw [after_get_bind]
  split
  · exact .refl
  · refine alterations_bind (alterations_createNode ?_ ?_ ?_) fun contents d' => ?_
    · exact nofun
    · exact nofun
    · exact nofun
    refine alterations_bind (alterations_modifyElement ?_ template) fun _ _ => .refl
    exact fun _ => ⟨rfl, rfl, rfl, rfl, rfl⟩

/-! ### Settings -/

theorem alterations_focus (target : Option NodeId) : Alterations d (d.after (focus target)) := by
  unfold focus
  cases target with
  | none => exact .single (.settings _ _ _)
  | some n =>
    simp only
    rw [after_get_bind]
    split
    · exact .refl
    · exact .single (.settings _ _ _)

theorem alterations_define (name : String) : Alterations d (d.after (define name)) := by
  unfold define
  split
  · dsimp only
    rw [after_get_bind]
    split
    · exact .refl
    · exact .single (.settings _ _ _)
  · exact .refl

theorem alterations_setAddress (address : String) : Alterations d (d.after (setAddress address)) := by
  unfold setAddress
  split
  · exact .single (.settings _ _ _)
  · exact .refl

/-- The operation may put a node somewhere. -/
def Operation.isMove : Operation → Bool
  | .append _ _ | .insertBefore _ _ => true
  | _ => false

theorem alterations_apply {op : Operation} (hop : op.isMove = false) :
    Alterations d (op.apply d) := by
  cases op with
  | append p child => cases hop
  | insertBefore reference n => cases hop
  | createText text => exact alterations_createNode nofun nofun nofun
  | createComment text => exact alterations_createNode nofun nofun nofun
  | createDoctype name => exact alterations_createNode nofun nofun nofun
  | createFragment => exact alterations_createNode nofun nofun nofun
  | createElement name => exact alterations_createElement name
  | createElementNS ns name => exact alterations_createElementNode _ _ _
  | createParsedElement localName ns => exact alterations_createElementNode _ _ _
  | remove n => exact .single (.detach n)
  | extendText n text => exact .single (.extendText n text)
  | setAttribute n name value => exact alterations_setAttribute n name value
  | setAttributeNS n ns name value => exact alterations_writeAttribute n _
  | removeAttribute n name => exact alterations_removeAttribute n name
  | addMissingAttributes n attributes => exact alterations_addMissingAttributes n attributes
  | attachShadow host mode => exact alterations_attachShadow host mode
  | ensureContents template => exact alterations_ensureContents template
  | setChecked n on => exact alterations_modifyState n _
  | setSelected n on => exact alterations_modifyState n _
  | setIndeterminate n on => exact alterations_modifyState n _
  | setValue n value => exact alterations_modifyState n _
  | focus target => exact alterations_focus target
  | define name => exact alterations_define name
  | setAddress address => exact alterations_setAddress address

/-- Whatever an operation does, it does by changes. -/
theorem changes_apply (h : d.Linked) (op : Operation) : Changes d (op.apply d) := by
  cases op
  case append p child => exact changes_append h p child
  case insertBefore reference n => exact changes_insertBefore h reference n
  all_goals exact (alterations_apply rfl).changes

end DomQuery.Document
