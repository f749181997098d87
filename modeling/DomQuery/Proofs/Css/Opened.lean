import DomQuery.Proofs.Css.Spells

/-!
# What an open block comes to hold

Reading on adds to what was read and takes nothing back: values stay as they are, and only
the last one, while it is a block that is open, is given more contents. So what a block
holds can be read off the text after its opening bracket, token by token, up to its end
or to the first bracket in it.

* `Nesting.grows_read`: one token.
* `Holds`: what the text after an opening parenthesis says of the contents of its block.
* `holds_contents`: it is what the block comes to hold.
-/

namespace DomQuery.Css

variable {cs rest : List Char} {t : Token} {v : Value} {us vs ws : List Value}

/-! ### Values that grow -/

/-- The same values, except that more may stand in the last of them, and after it. -/
inductive Grows : List Value → List Value → Prop
  | nil {vs : List Value} : Grows [] vs
  | cons {v : Value} {vs ws : List Value} (h : Grows vs ws) : Grows (v :: vs) (v :: ws)
  | block {opener : Token} {contents contents' vs : List Value} {source source' : List Char}
      (h : Grows contents contents') :
      Grows [.block opener contents source] (.block opener contents' source' :: vs)

namespace Grows

protected theorem refl (vs : List Value) : Grows vs vs := by
  induction vs with
  | nil => exact .nil
  | cons v vs ih => exact .cons ih

theorem append_left (us : List Value) (h : Grows vs ws) : Grows (us ++ vs) (us ++ ws) := by
  induction us with
  | nil => exact h
  | cons u us ih => exact .cons ih

theorem append_right (vs ws : List Value) : Grows vs (vs ++ ws) := by
  have h : Grows (vs ++ []) (vs ++ ws) := append_left vs .nil
  rwa [List.append_nil] at h

theorem eq_nil (h : Grows vs []) : vs = [] := by
  cases h
  rfl

protected theorem trans (h : Grows us vs) (h' : Grows vs ws) : Grows us ws := by
  induction h generalizing ws with
  | nil => exact .nil
  | cons h ih =>
    cases h' with
    | cons h' => exact .cons (ih h')
    | block h' =>
      obtain rfl := h.eq_nil
      exact .block h'
  | block h ih =>
    cases h' with
    | cons h' => exact .block h
    | block h' => exact .block (ih h')

theorem of_cons (h : Grows (v :: vs) ws) (hvs : vs ≠ []) : ∃ ws', ws = v :: ws' ∧ Grows vs ws' := by
  cases h with
  | cons h => exact ⟨_, rfl, h⟩
  | block => exact absurd rfl hvs

/-- A block goes on where it stood. -/
theorem exists_block {opener : Token} {contents : List Value} {source : List Char}
    (h : Grows (us ++ [.block opener contents source]) ws) : ∃ contents' source' after,
      ws = us ++ .block opener contents' source' :: after ∧ Grows contents contents' := by
  induction us generalizing ws with
  | nil =>
    cases h with
    | cons => exact ⟨contents, source, _, rfl, .refl contents⟩
    | block h => exact ⟨_, _, _, rfl, h⟩
  | cons u us ih =>
    obtain ⟨ws, rfl, htail⟩ := h.of_cons (by simp)
    obtain ⟨contents', source', after, rfl, hgrows⟩ := ih htail
    exact ⟨contents', source', after, rfl, hgrows⟩

/-- A value begins as it did, where it stood. -/
theorem exists_first (h : Grows (us ++ [v]) ws) :
    ∃ v' after, ws = us ++ v' :: after ∧ v'.first = v.first := by
  induction us generalizing ws with
  | nil =>
    cases h with
    | cons => exact ⟨v, _, rfl, rfl⟩
    | block => exact ⟨_, _, rfl, rfl⟩
  | cons u us ih =>
    obtain ⟨ws, rfl, htail⟩ := h.of_cons (by simp)
    obtain ⟨v', after, rfl, hfirst⟩ := ih htail
    exact ⟨v', after, rfl, hfirst⟩

end Grows

/-! ### Reading on -/

namespace Nesting

theorem close_nil (values : List Value) : close ⟨values, []⟩ = values.reverse :=
  rfl

theorem foldl_pop_congr {fs gs : List Frame} (h : fs.length = gs.length) (n : Nesting) :
    fs.foldl (fun m _ => m.pop []) n = gs.foldl (fun m _ => m.pop []) n := by
  induction fs generalizing gs n with
  | nil => rw [List.length_eq_zero_iff.mp h.symm]
  | cons f fs ih =>
    obtain ⟨g, gs, rfl⟩ := List.exists_cons_of_length_eq_add_one h.symm
    exact ih (Nat.succ.inj h) _

theorem length_frames_push (n : Nesting) (v : Option Value) (text : List Char) :
    (n.push v text).frames.length = n.frames.length := by
  obtain ⟨values, _ | ⟨f, fs⟩⟩ := n
  · rfl
  · rfl

/-- The innermost open block ends first, as the last value of the one around it. -/
theorem close_cons (values : List Value) (f : Frame) (fs : List Frame) :
    close ⟨values, f :: fs⟩ = close (push ⟨values, fs⟩ (some f.value) (f.lead ++ f.text ++ [])) := by
  have hlength := length_frames_push ⟨values, fs⟩ (some f.value) (f.lead ++ f.text ++ [])
  rw [close, close, foldl_pop_congr hlength]
  rfl

theorem close_push (values : List Value) (f : Frame) (v : Value) (text : List Char) :
    close (push ⟨values, [f]⟩ (some v) text) =
      values.reverse ++ [.block f.opener (f.contents.reverse ++ [v]) (f.text ++ text)] := by
  have hclosed : ∀ g : Frame, close ⟨values, [g]⟩ = values.reverse ++ [g.value] := fun g => by
    rw [close_cons]
    exact List.reverse_cons
  refine (hclosed _).trans ?_
  simp [Frame.value, Frame.text]

theorem grows_close_block {opener : Token} {contents contents' : List Value}
    {source source' : List Char} (h : Grows contents contents') (values : List Value)
    (fs : List Frame) (text text' : List Char) :
    Grows (close (push ⟨values, fs⟩ (some (.block opener contents source)) text))
      (close (push ⟨values, fs⟩ (some (.block opener contents' source')) text')) := by
  induction fs generalizing opener contents contents' source source' text text' with
  | nil =>
    change Grows (close ⟨_ :: values, []⟩) (close ⟨_ :: values, []⟩)
    rw [close_nil, close_nil, List.reverse_cons, List.reverse_cons]
    exact .append_left _ (.block h)
  | cons f fs ih =>
    change Grows (close ⟨values, _ :: fs⟩) (close ⟨values, _ :: fs⟩)
    rw [close_cons, close_cons]
    refine ih ?_ _ _
    change Grows (_ :: f.contents).reverse (_ :: f.contents).reverse
    rw [List.reverse_cons, List.reverse_cons]
    exact .append_left _ (.block h)

theorem grows_push (n : Nesting) (v : Option Value) (text : List Char) :
    Grows n.close (n.push v text).close := by
  obtain ⟨values, _ | ⟨f, fs⟩⟩ := n
  · change Grows (close ⟨values, []⟩) (close ⟨v.toList ++ values, []⟩)
    rw [close_nil, close_nil, List.reverse_append]
    exact .append_right _ _
  · change Grows (close ⟨values, f :: fs⟩) (close ⟨values, _ :: fs⟩)
    rw [close_cons, close_cons]
    refine grows_close_block ?_ values fs _ _
    change Grows f.contents.reverse (v.toList ++ f.contents).reverse
    rw [List.reverse_append]
    exact .append_right _ _

theorem grows_pop (n : Nesting) (trail : List Char) : Grows n.close (n.pop trail).close := by
  obtain ⟨values, _ | ⟨f, fs⟩⟩ := n
  · exact .refl _
  · rw [close_cons]
    exact grows_close_block (.refl _) values fs _ _

theorem grows_open (n : Nesting) (f : Frame) : Grows n.close (close ⟨n.values, f :: n.frames⟩) := by
  rw [close_cons]
  exact grows_push n _ _

theorem grows_read (n : Nesting) (l : Lexeme) : Grows n.close (n.read l).close := by
  unfold read
  split
  · exact grows_push n _ _
  split
  · exact grows_pop n _
  split
  · exact grows_open n _
  · exact grows_push n _ _

theorem grows_foldl (n : Nesting) (ls : List Lexeme) : Grows n.close (ls.foldl read n).close := by
  induction ls generalizing n with
  | nil => exact .refl _
  | cons l ls ih => exact (grows_read n l).trans (ih (n.read l))

theorem values_suffix_push (n : Nesting) (v : Option Value) (text : List Char) :
    n.values <:+ (n.push v text).values := by
  obtain ⟨values, _ | ⟨f, fs⟩⟩ := n
  · exact List.suffix_append _ _
  · exact List.suffix_rfl

theorem values_suffix_pop (n : Nesting) (trail : List Char) : n.values <:+ (n.pop trail).values := by
  obtain ⟨values, _ | ⟨f, fs⟩⟩ := n
  · exact List.suffix_rfl
  · exact values_suffix_push ⟨values, fs⟩ _ _

theorem values_suffix_read (n : Nesting) (l : Lexeme) : n.values <:+ (n.read l).values := by
  unfold read
  split
  · exact values_suffix_push n _ _
  split
  · exact values_suffix_pop n _
  split
  · exact List.suffix_rfl
  · exact values_suffix_push n _ _

theorem values_suffix_foldl (n : Nesting) (ls : List Lexeme) :
    n.values <:+ (ls.foldl read n).values := by
  induction ls generalizing n with
  | nil => exact List.suffix_rfl
  | cons l ls ih => exact (values_suffix_read n l).trans (ih (n.read l))

theorem values_suffix_pops (n : Nesting) (fs : List Frame) :
    n.values <:+ (fs.foldl (fun m _ => m.pop []) n).values := by
  induction fs generalizing n with
  | nil => exact List.suffix_rfl
  | cons f fs ih => exact (values_suffix_pop n []).trans (ih _)

/-- What stands outside of all blocks stays. -/
theorem values_prefix (n : Nesting) (ls : List Lexeme) :
    n.values.reverse <+: (ls.foldl read n).close :=
  List.reverse_prefix.mpr ((values_suffix_foldl n ls).trans (values_suffix_pops _ _))

end Nesting

/-! ### The contents of a block -/

/-- After an opening parenthesis, `cs` tells what its block holds: all values up to its end, or up
to the first bracket, whose value begins with it. -/
inductive Holds : List Char → List Value → Prop
  | nil : Holds [] []
  | close {cs rest : List Char} (hscan : Token.scan? cs = some (.closeParen, rest)) : Holds cs []
  | bracket {cs rest : List Char} {t : Token} {v : Value} {vs : List Value}
      (hscan : Token.scan? cs = some (t, rest)) (ht : t.isBracket = true) (hne : t ≠ .closeParen)
      (hv : v.first = t) : Holds cs (v :: vs)
  | token {cs rest : List Char} {t : Token} {vs : List Value}
      (hscan : Token.scan? cs = some (t, rest)) (ht : t.isBracket = false) (h : Holds rest vs) :
      Holds cs (t.value?.toList ++ vs)

/-- The first bracket in a block begins a value of it. -/
theorem exists_close_bracket (values : List Value) {f : Frame} (hf : f.closer = .closeParen)
    (ht : t.isBracket = true) (hne : t ≠ .closeParen) (text : List Char) :
    ∃ v source, (Nesting.read ⟨values, [f]⟩ ⟨t, text⟩).close =
      values.reverse ++ [.block f.opener (f.contents.reverse ++ [v]) source] ∧ v.first = t := by
  have hproper : Nesting.Proper ⟨values, [f]⟩ := List.forall_mem_singleton.mpr (by rw [hf]; rfl)
  rcases hcloser : t.isCloser with _ | _
  · obtain ⟨closer, hopens⟩ : ∃ closer, t.closer? = some closer := by
      rw [Token.isBracket, hcloser, Bool.or_false] at ht
      exact Option.isSome_iff_exists.mp ht
    rw [Nesting.read_of_not_isCloser hproper hcloser, hopens]
    exact ⟨_, _, (Nesting.close_cons _ _ _).trans (Nesting.close_push values f _ _), rfl⟩
  · have hread : Nesting.read ⟨values, [f]⟩ ⟨t, text⟩ =
        Nesting.push ⟨values, [f]⟩ (some (.token t)) text := by
      obtain ⟨opener, closer, lead, contents, source⟩ := f
      obtain rfl : closer = .closeParen := hf
      cases t
      case closeParen => exact absurd rfl hne
      case closeSquare | closeCurly => rfl
      all_goals cases hcloser
    rw [hread]
    exact ⟨_, _, Nesting.close_push values f _ text, rfl⟩

/-- A block that was just opened with a parenthesis comes to hold what the text tells. -/
theorem holds_contents (values : List Value) (f : Frame) (hf : f.closer = .closeParen)
    (cs : List Char) : ∃ vs source after,
      ((lex cs).foldl Nesting.read ⟨values, [f]⟩).close =
        values.reverse ++ .block f.opener (f.contents.reverse ++ vs) source :: after ∧ Holds cs vs := by
  induction hn : cs.length using Nat.strongRecOn generalizing cs f with
  | ind n ih =>
    rcases cs with _ | ⟨c, cs⟩
    · refine ⟨[], f.text, [], ?_, .nil⟩
      rw [List.append_nil]
      exact List.reverse_cons
    obtain ⟨source, hsource, hlex⟩ := exists_lex_cons c cs
    have hscan : Token.scan? (c :: cs) = some ((scanFrom c cs).1, (scanFrom c cs).2) := rfl
    have hlt := scan?_suffix hscan
    generalize (scanFrom c cs).1 = t at hlex hscan
    generalize (scanFrom c cs).2 = rest at hlex hscan hlt
    have hproper : Nesting.Proper ⟨values, [f]⟩ := List.forall_mem_singleton.mpr (by rw [hf]; rfl)
    rw [hlex, List.foldl_cons]
    by_cases hclose : t = .closeParen
    · subst hclose
      rw [← hf, Nesting.read_closer (by rw [hf]; rfl)]
      obtain ⟨after, hafter⟩ := Nesting.values_prefix ⟨f.value :: values, []⟩ (lex rest)
      refine ⟨[], f.text, after, ?_, .close hscan⟩
      rw [List.append_nil]
      refine hafter.symm.trans ?_
      rw [List.reverse_cons, List.append_assoc]
      rfl
    rcases hbracket : t.isBracket with _ | _
    · have hread := Nesting.adds_token hbracket (c :: source) _ hproper
      rw [List.foldl_cons, List.foldl_nil] at hread
      rw [hread]
      obtain ⟨vs, source', after, hclose, hholds⟩ := ih _ (hn ▸ hlt)
        { f with
          contents := t.value?.toList.reverse ++ f.contents
          source := [c :: source] ++ f.source }
        hf rest rfl
      refine ⟨t.value?.toList ++ vs, source', after, hclose.trans ?_, .token hscan hbracket hholds⟩
      rw [List.reverse_append, List.reverse_reverse, List.append_assoc]
    · obtain ⟨v, source', hread, hv⟩ := exists_close_bracket values hf hbracket hclose (c :: source)
      have hgrows := Nesting.grows_foldl (Nesting.read ⟨values, [f]⟩ ⟨t, c :: source⟩) (lex rest)
      rw [hread] at hgrows
      obtain ⟨contents, source'', after, hfinal, hcontents⟩ := hgrows.exists_block
      obtain ⟨v', later, rfl, hfirst⟩ := hcontents.exists_first
      exact ⟨v' :: later, source'', after, hfinal, .bracket hscan hbracket hclose (hfirst.trans hv)⟩

end DomQuery.Css
