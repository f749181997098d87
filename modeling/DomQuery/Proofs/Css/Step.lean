import DomQuery.Css.Step
import DomQuery.Proofs.Outcome

/-!
# What reading a step leaves

Whatever a reader of steps leaves to be read was there before.
-/

namespace DomQuery.Css

variable {α : Type} {tokenOf : α → Token} {items rest : List α}

theorem next_suffix {item : α} (h : next tokenOf items = .ok (item, rest)) : rest <:+ items := by
  unfold next at h
  split at h
  · rename_i hs
    obtain ⟨rfl, rfl⟩ : _ = item ∧ _ = rest := by simpa using h
    have hskip : skipSpace tokenOf items <:+ items := List.dropWhile_suffix _
    rw [hs] at hskip
    exact (List.suffix_cons _ _).trans hskip
  · cases h

theorem readUnsigned_suffix {negative : Bool} {r : Int × List α}
    (h : readUnsigned tokenOf negative items = .ok r) : r.2 <:+ items := by
  obtain ⟨⟨item, rest⟩, hn, h⟩ := bind_eq_ok.mp h
  have hsuffix := next_suffix hn
  simp only at h
  split at h
  · split at h
    · obtain rfl := pure_eq_ok.mp h
      exact hsuffix
    · cases h
  · cases h

theorem readOffset_suffix {r : Int × List α} (h : readOffset tokenOf items = .ok r) :
    r.2 <:+ items := by
  unfold readOffset at h
  split at h
  · obtain rfl := pure_eq_ok.mp h
    exact List.suffix_rfl
  · rename_i hn
    have hsuffix := next_suffix hn
    split at h
    · exact (readUnsigned_suffix h).trans hsuffix
    · exact (readUnsigned_suffix h).trans hsuffix
    · split at h
      · obtain rfl := pure_eq_ok.mp h
        exact hsuffix
      · obtain rfl := pure_eq_ok.mp h
        exact List.suffix_rfl
    · obtain rfl := pure_eq_ok.mp h
      exact List.suffix_rfl

theorem readAfterStep_suffix {a : Int} {name : String} {r : (Int × Int) × List α}
    (h : readAfterStep tokenOf a name items = .ok r) : r.2 <:+ items := by
  unfold readAfterStep at h
  split at h
  · obtain ⟨⟨b, rest⟩, hb, h⟩ := bind_eq_ok.mp h
    obtain rfl := pure_eq_ok.mp h
    exact readOffset_suffix hb
  · obtain ⟨⟨b, rest⟩, hb, h⟩ := bind_eq_ok.mp h
    obtain rfl := pure_eq_ok.mp h
    exact readUnsigned_suffix hb
  · split at h
    · obtain rfl := pure_eq_ok.mp h
      exact List.suffix_rfl
    · cases h

theorem readNamed_suffix {name : String} {r : (Int × Int) × List α}
    (h : readNamed tokenOf name items = .ok r) : r.2 <:+ items := by
  unfold readNamed at h
  split at h
  · obtain rfl := pure_eq_ok.mp h
    exact List.suffix_rfl
  · obtain rfl := pure_eq_ok.mp h
    exact List.suffix_rfl
  · split at h
    · simp only at h
      split at h
      · exact readAfterStep_suffix h
      · cases h
    · exact readAfterStep_suffix h

theorem readStep_suffix {r : (Int × Int) × List α} (h : readStep tokenOf items = .ok r) :
    r.2 <:+ items := by
  obtain ⟨⟨item, rest⟩, hn, h⟩ := bind_eq_ok.mp h
  refine List.IsSuffix.trans ?_ (next_suffix hn)
  simp only at h
  split at h
  · split at h
    · obtain rfl := pure_eq_ok.mp h
      exact List.suffix_rfl
    · cases h
  · split at h
    · exact readAfterStep_suffix h
    · cases h
  · exact readNamed_suffix h
  · split at h
    · cases h
    · split at h
      · exact (readAfterStep_suffix h).trans (List.suffix_cons _ _)
      · cases h
  · cases h

end DomQuery.Css
