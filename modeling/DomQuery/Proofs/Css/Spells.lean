import DomQuery.Css.Block
import DomQuery.Proofs.Css.Scan

/-!
# Texts that spell values

A piece of text spells values in front of what follows it, if reading it adds just
these values to the innermost open block, whatever is open. Texts are put together
from such pieces, and a piece between two brackets becomes a block.

* `Spells.append`, `spells_token`, `Spells.block`: how pieces are put together.
* `Spells.values_eq`: the values of a text that spells them.
* `Balanced`: brackets have their partners; then tokens add values, whatever is open.
-/

namespace DomQuery.Css

variable {s t rest : List Char} {vs ws : List Value} {token : Token}

/-! ### Adding values to a block -/

namespace Nesting

/-- Adds values with their text, in pieces, to the innermost open block. -/
def add (n : Nesting) (vs : List Value) (pieces : List (List Char)) : Nesting :=
  match n.frames with
  | [] => ⟨vs.reverse ++ n.values, []⟩
  | f :: fs =>
    ⟨n.values,
      { f with contents := vs.reverse ++ f.contents, source := pieces.reverse ++ f.source } :: fs⟩

variable (n : Nesting) {pieces pieces' : List (List Char)}

@[simp]
theorem add_nil : n.add [] [] = n := by
  obtain ⟨values, _ | ⟨f, fs⟩⟩ := n
  · rfl
  · rfl

theorem add_add : (n.add vs pieces).add ws pieces' = n.add (vs ++ ws) (pieces ++ pieces') := by
  obtain ⟨values, _ | ⟨f, fs⟩⟩ := n
  · simp [add]
  · simp [add]

theorem push_eq (v : Option Value) (text : List Char) : n.push v text = n.add v.toList [text] := by
  obtain ⟨values, _ | ⟨f, fs⟩⟩ := n
  · rcases v with _ | v <;> rfl
  · rcases v with _ | v <;> rfl

end Nesting

/-- A bracket at the end of a block. -/
def Token.isCloser (t : Token) : Bool :=
  t == .closeParen || t == .closeSquare || t == .closeCurly

/-- A bracket or a function. -/
def Token.isBracket (t : Token) : Bool :=
  t.closer?.isSome || t.isCloser

/-- What a token that is no bracket stands for: nothing, if it is a comment. -/
def Token.value? : Token → Option Value
  | .comment _ => none
  | t => some (.token t)

/-- The token that a value begins with. -/
def Value.first : Value → Token
  | .token t => t
  | .block opener _ _ => opener

theorem Token.isCloser_of_closer? {opener closer : Token} (h : opener.closer? = some closer) :
    closer.isCloser = true := by
  cases opener <;> cases h <;> rfl

theorem Token.isCloser_of_opens {opener closer : Token} (h : opener.closer? = some closer) :
    opener.isCloser = false := by
  cases opener <;> cases h <;> rfl

namespace Nesting

/-- The open blocks wait for brackets. -/
def Proper (n : Nesting) : Prop :=
  ∀ f ∈ n.frames, f.closer.isCloser = true

theorem Proper.empty : Proper .empty :=
  fun _ h => absurd h List.not_mem_nil

theorem Proper.add {n : Nesting} (h : n.Proper) (vs : List Value) (pieces : List (List Char)) :
    (n.add vs pieces).Proper := by
  obtain ⟨values, _ | ⟨f, fs⟩⟩ := n
  · exact h
  · exact List.forall_mem_cons.mpr (List.forall_mem_cons.mp h)

/-- A token that closes nothing here. -/
theorem read_of_not_isCloser {n : Nesting} (hn : n.Proper) (h : token.isCloser = false)
    (source : List Char) : n.read ⟨token, source⟩ = match token.closer? with
      | some closer => ⟨n.values, ⟨token, closer, source, [], []⟩ :: n.frames⟩
      | none => n.push token.value? source := by
  have hopen : ((n.frames.head?.map Frame.closer) == some token) = false := by
    rcases hframes : n.frames with _ | ⟨f, fs⟩
    · rfl
    · have hf := hn f (by simp [hframes])
      simp only [List.head?_cons, Option.map_some, beq_eq_false_iff_ne, ne_eq, Option.some.injEq]
      rintro rfl
      rw [hf] at h
      cases h
  unfold read
  cases token
  case comment => rfl
  all_goals
    simp only [hopen, Bool.false_eq_true, if_false]
    rfl

/-- A token that closes the innermost open block. -/
theorem read_closer {values : List Value} {f : Frame} {fs : List Frame}
    (h : f.closer.isCloser = true) (source : List Char) :
    read ⟨values, f :: fs⟩ ⟨f.closer, source⟩ =
      add ⟨values, fs⟩ [f.value] [f.lead ++ f.text ++ source] := by
  have hread : read ⟨values, f :: fs⟩ ⟨f.closer, source⟩ = pop ⟨values, f :: fs⟩ source := by
    obtain ⟨opener, closer, lead, contents, pieces⟩ := f
    have hopen : (some closer == some closer) = true := BEq.rfl
    unfold read
    cases closer
    case comment => cases h
    all_goals simp only [List.head?_cons, Option.map_some, hopen, if_true]
  rw [hread]
  exact push_eq _ (some f.value) _

/-- Reading the tokens adds these values to the innermost open block. -/
def Adds (ls : List Lexeme) (vs : List Value) (pieces : List (List Char)) : Prop :=
  ∀ n : Nesting, n.Proper → ls.foldl read n = n.add vs pieces

variable {ls ms : List Lexeme} {pieces pieces' : List (List Char)}

theorem adds_nil : Adds [] [] [] :=
  fun n _ => n.add_nil.symm

theorem Adds.append (h : Adds ls vs pieces) (h' : Adds ms ws pieces') :
    Adds (ls ++ ms) (vs ++ ws) (pieces ++ pieces') := fun n hn => by
  rw [List.foldl_append, h n hn, h' _ (hn.add vs pieces), add_add]

theorem adds_token (h : token.isBracket = false) (source : List Char) :
    Adds [⟨token, source⟩] token.value?.toList [source] := by
  intro n hn
  obtain ⟨hopener, hcloser⟩ := Bool.or_eq_false_iff.mp h
  have hnone : token.closer? = none := by simpa using hopener
  rw [← push_eq, List.foldl_cons, List.foldl_nil, read_of_not_isCloser hn hcloser, hnone]

theorem adds_block {closer : Token} (hcloser : token.closer? = some closer) (h : Adds ls vs pieces)
    (lead trail : List Char) : Adds (⟨token, lead⟩ :: (ls ++ [⟨closer, trail⟩]))
      [.block token vs pieces.flatten] [lead ++ pieces.flatten ++ trail] := by
  intro n hn
  have hopened : Proper ⟨n.values, ⟨token, closer, lead, [], []⟩ :: n.frames⟩ :=
    List.forall_mem_cons.mpr ⟨Token.isCloser_of_closer? hcloser, hn⟩
  rw [List.foldl_cons, read_of_not_isCloser hn (Token.isCloser_of_opens hcloser), hcloser,
    List.foldl_append, h _ hopened, List.foldl_cons, List.foldl_nil]
  refine (read_closer (Token.isCloser_of_closer? hcloser) trail).trans ?_
  simp only [Frame.value, Frame.text, List.append_nil, List.reverse_reverse]

end Nesting

/-! ### Pieces of text -/

/-- In front of `rest`, the text `s` is read as the values `vs`. -/
def Spells (s : List Char) (vs : List Value) (rest : List Char) : Prop :=
  ∃ ls pieces, lex (s ++ rest) = ls ++ lex rest ∧ Nesting.Adds ls vs pieces ∧ pieces.flatten = s

theorem spells_nil : Spells [] [] rest :=
  ⟨[], [], rfl, Nesting.adds_nil, rfl⟩

theorem Spells.append (h : Spells s vs (t ++ rest)) (h' : Spells t ws rest) :
    Spells (s ++ t) (vs ++ ws) rest := by
  obtain ⟨ls, pieces, hlex, hadds, rfl⟩ := h
  obtain ⟨ms, pieces', hlex', hadds', rfl⟩ := h'
  refine ⟨ls ++ ms, pieces ++ pieces', ?_, hadds.append hadds', List.flatten_append⟩
  rw [List.append_assoc, hlex, hlex', List.append_assoc]

theorem spells_token (hscan : Token.scan? (s ++ rest) = some (token, rest))
    (h : token.isBracket = false) : Spells s token.value?.toList rest :=
  ⟨[⟨token, s⟩], [s], lex_of_scan? hscan, Nesting.adds_token h s, List.flatten_singleton⟩

/-- A piece of text between brackets is a block. -/
theorem Spells.block {opener closer : Token} {lead trail : List Char}
    (h : Spells s vs (trail ++ rest)) (hcloser : opener.closer? = some closer)
    (hlead : Token.scan? (lead ++ (s ++ (trail ++ rest))) = some (opener, s ++ (trail ++ rest)))
    (htrail : Token.scan? (trail ++ rest) = some (closer, rest)) :
    Spells (lead ++ s ++ trail) [.block opener vs s] rest := by
  obtain ⟨ls, pieces, hlex, hadds, rfl⟩ := h
  refine ⟨⟨opener, lead⟩ :: (ls ++ [⟨closer, trail⟩]), _, ?_,
    Nesting.adds_block hcloser hadds lead trail, List.flatten_singleton⟩
  rw [List.append_assoc, List.append_assoc, lex_of_scan? hlead, hlex, lex_of_scan? htrail]
  simp

/-- The values of a text. -/
theorem Spells.values_eq {text : String} (h : Spells text.toList vs []) : values text = vs := by
  obtain ⟨ls, pieces, hlex, hadds, -⟩ := h
  rw [List.append_nil, lex_nil, List.append_nil] at hlex
  rw [values, hlex, hadds .empty Nesting.Proper.empty]
  simp [Nesting.add, Nesting.empty, Nesting.close]

/-! ### Balanced brackets -/

/-- Every bracket has its partner, and `p` holds of the tokens outside of them. -/
inductive Balanced : (Token → Prop) → List Lexeme → Prop
  | nil {p : Token → Prop} : Balanced p []
  | token {p : Token → Prop} {l : Lexeme} {ls : List Lexeme} (hp : p l.token)
      (hl : l.token.isBracket = false) (rest : Balanced p ls) : Balanced p (l :: ls)
  | block {p : Token → Prop} {l r : Lexeme} {inside ls : List Lexeme}
      (hcloser : l.token.closer? = some r.token) (contents : Balanced (fun _ => True) inside)
      (rest : Balanced p ls) : Balanced p (l :: (inside ++ r :: ls))

theorem Balanced.exists_adds {p : Token → Prop} {ls : List Lexeme} (h : Balanced p ls) :
    ∃ vs pieces, Nesting.Adds ls vs pieces ∧ pieces.flatten = (ls.map Lexeme.source).flatten ∧
      ∀ v ∈ vs, p v.first ∨ v.first.closer?.isSome = true := by
  induction h with
  | nil => exact ⟨[], [], Nesting.adds_nil, rfl, fun _ h => absurd h List.not_mem_nil⟩
  | @token p l ls hp hl _ ih =>
    obtain ⟨vs, pieces, hadds, hpieces, hvs⟩ := ih
    refine ⟨l.token.value?.toList ++ vs, [l.source] ++ pieces,
      (Nesting.adds_token hl l.source).append hadds, by simp [hpieces], fun v hv => ?_⟩
    rcases List.mem_append.mp hv with hv | hv
    · have hvalue : l.token.value? = none ∨ l.token.value? = some (.token l.token) := by
        cases l.token <;> simp [Token.value?]
      rcases hvalue with hvalue | hvalue
      · rw [hvalue] at hv
        cases hv
      · rw [hvalue] at hv
        obtain rfl : v = .token l.token := by simpa using hv
        exact .inl hp
    · exact hvs v hv
  | @block p l r inside ls hcloser _ _ ihInside ih =>
    obtain ⟨vs, pieces, hadds, hpieces, -⟩ := ihInside
    obtain ⟨ws, pieces', hadds', hpieces', hws⟩ := ih
    have hblock := (Nesting.adds_block hcloser hadds l.source r.source).append hadds'
    rw [List.cons_append, List.append_assoc, List.singleton_append] at hblock
    refine ⟨_, _, hblock, by simp [hpieces, hpieces'], List.forall_mem_cons.mpr ⟨.inr ?_, hws⟩⟩
    exact Option.isSome_of_eq_some hcloser

theorem flatten_sources (cs : List Char) : ((lex cs).map Lexeme.source).flatten = cs := by
  induction h : cs.length using Nat.strongRecOn generalizing cs with
  | ind n ih =>
    rcases cs with _ | ⟨c, cs⟩
    · rfl
    · obtain ⟨source, hsource, hlex⟩ := exists_lex_cons c cs
      have hlt := Nat.lt_succ_of_le (scanFrom_suffix c cs).length_le
      rw [List.length_cons] at h
      rw [hlex, List.map_cons, List.flatten_cons, ih _ (h ▸ hlt) _ rfl, hsource]

end DomQuery.Css
