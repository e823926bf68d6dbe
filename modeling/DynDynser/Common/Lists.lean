import Mathlib.Data.List.Nodup
/-!
# Selections from a list

A loop that sorts what it goes through into several lists makes a
selection for each, a `filterMap`. Where every entry has a key and the
keys differ, selections that exclude one another share no key.
-/

namespace Lists

variable {α β γ κ : Type}

/-- The keys of a selection are keys of the list, in its order. -/
theorem filterMap_map_sublist {f : α → Option β} {g : β → κ} {key : α → κ}
    (h : ∀ a b, f a = some b → g b = key a) (l : List α) :
    ((l.filterMap f).map g).Sublist (l.map key) := by
  induction l with
  | nil => exact List.Sublist.refl _
  | cons a l ih =>
    cases hf : f a with
    | none =>
      rw [List.filterMap_cons_none hf, List.map_cons]
      exact ih.cons _
    | some b =>
      rw [List.filterMap_cons_some hf, List.map_cons, List.map_cons, h a b hf]
      exact ih.cons_cons _

/-- Two selections that exclude one another share no key. -/
theorem disjoint_filterMap {f : α → Option β} {f' : α → Option γ} {g : β → κ} {g' : γ → κ}
    {key : α → κ} {l : List α} (hkeys : (l.map key).Nodup) (h : ∀ a b, f a = some b → g b = key a)
    (h' : ∀ a b, f' a = some b → g' b = key a) (hne : ∀ a, (f a).isSome → f' a = none) :
    ((l.filterMap f).map g).Disjoint ((l.filterMap f').map g') := by
  intro k hk hk'
  obtain ⟨b, hb, rfl⟩ := List.mem_map.mp hk
  obtain ⟨c, hc, heq⟩ := List.mem_map.mp hk'
  obtain ⟨a, ha, hab⟩ := List.mem_filterMap.mp hb
  obtain ⟨a', ha', hac⟩ := List.mem_filterMap.mp hc
  -- the two entries have one key, so they are one entry
  have hsame : key a = key a' := by rw [← h a b hab, ← h' a' c hac, heq]
  obtain rfl := List.inj_on_of_nodup_map hkeys ha ha' hsame
  rw [hne a (by rw [hab]; rfl)] at hac
  cases hac

/-- Two beginnings of one list: what the one has beyond the other is its
end. -/
theorem filter_not_mem_suffix [DecidableEq α] {l gone d : List α} (hl : l <+: d) (hgone : gone <+: d)
    (hnodup : l.Nodup) : (l.filter fun a => a ∉ gone) <:+ l := by
  rcases List.prefix_or_prefix_of_prefix hl hgone with h | h
  · have hnil : l.filter (fun a => a ∉ gone) = [] := by
      refine List.filter_eq_nil_iff.mpr fun a ha hdecide => ?_
      exact of_decide_eq_true hdecide (h.subset ha)
    rw [hnil]
    exact List.nil_suffix
  · obtain ⟨r, rfl⟩ := h
    have hfirst : gone.filter (fun a => a ∉ gone) = [] :=
      List.filter_eq_nil_iff.mpr fun a ha hdecide => of_decide_eq_true hdecide ha
    have hrest : r.filter (fun a => a ∉ gone) = r := by
      refine List.filter_eq_self.mpr fun a ha => decide_eq_true fun hmem => ?_
      exact (List.nodup_append.mp hnodup).2.2 a hmem a ha rfl
    rw [List.filter_append, hfirst, hrest, List.nil_append]
    exact List.suffix_append gone r

/-- A list that is cut in front of the last place of an element is cut in
what comes before it, or right there. -/
theorem mem_or_eq_of_append {l r before after : List α} {p e : α}
    (h : l ++ p :: r = before ++ e :: after) (hp : p ∉ before) : e ∈ l ∨ e = p := by
  rcases List.append_eq_append_iff.mp h with ⟨b, rfl, hb⟩ | ⟨b, rfl, hb⟩
  · cases b with
    | nil => exact Or.inr (List.cons.inj hb).1.symm
    | cons x b =>
      obtain ⟨rfl, -⟩ := List.cons.inj hb
      exact absurd (by simp) hp
  · cases b with
    | nil => exact Or.inr (List.cons.inj hb).1
    | cons x b =>
      obtain ⟨rfl, -⟩ := List.cons.inj hb
      exact Or.inl (by simp)

/-- A list that is cut at an element which its first part does not have is
cut in its second part. -/
theorem append_eq_append_cons_of_not_mem {l r before after : List α} {e : α}
    (h : l ++ r = before ++ e :: after) (he : e ∉ l) :
    ∃ mid, before = l ++ mid ∧ r = mid ++ e :: after := by
  rcases List.append_eq_append_iff.mp h with ⟨mid, hb, hr⟩ | ⟨mid, hl, hr⟩
  · exact ⟨mid, hb, hr⟩
  · cases mid with
    | nil => exact ⟨[], by simpa using hl.symm, hr.symm⟩
    | cons x mid =>
      obtain ⟨rfl, -⟩ := List.cons.inj hr
      exact absurd (by rw [hl]; simp) he

/-- A list that ends in one more element is cut before that, or at it. -/
theorem append_singleton_eq_cons {l before after : List α} {x e : α}
    (h : l ++ [x] = before ++ e :: after) :
    (∃ rest, after = rest ++ [x] ∧ l = before ++ e :: rest) ∨ after = [] ∧ before = l ∧ e = x := by
  rcases List.eq_nil_or_concat' after with rfl | ⟨rest, y, rfl⟩
  · obtain ⟨rfl, rfl⟩ := List.append_singleton_inj.mp h
    exact Or.inr ⟨rfl, rfl, rfl⟩
  · rw [← List.cons_append, ← List.append_assoc] at h
    obtain ⟨rfl, rfl⟩ := List.append_singleton_inj.mp h
    exact Or.inl ⟨rest, rfl, rfl⟩

/-- A row of words has the letters of its words, and what is between them. -/
theorem mem_intercalate {c sep : α} {words : List (List α)}
    (h : c ∈ [sep].intercalate words) : c = sep ∨ ∃ word ∈ words, c ∈ word := by
  induction words with
  | nil => simp [List.intercalate] at h
  | cons word words ih =>
    cases words with
    | nil => exact Or.inr ⟨word, List.mem_cons_self, by simpa [List.intercalate] using h⟩
    | cons word' words =>
      rw [List.intercalate_cons_cons] at h
      simp only [List.mem_append, List.mem_singleton] at h
      rcases h with (hc | hc) | hc
      · exact Or.inr ⟨word, List.mem_cons_self, hc⟩
      · exact Or.inl hc
      · rcases ih hc with hsep | ⟨w, hw, hcw⟩
        · exact Or.inl hsep
        · exact Or.inr ⟨w, List.mem_cons_of_mem _ hw, hcw⟩

/-- So what holds of the letters of the words and of what is between them
holds of the letters of the row. -/
theorem forall_mem_intercalate {P : α → Prop} {sep : α} {words : List (List α)} (hsep : P sep)
    (h : ∀ word ∈ words, ∀ c ∈ word, P c) : ∀ c ∈ [sep].intercalate words, P c := by
  intro c hc
  rcases mem_intercalate hc with rfl | ⟨word, hword, hmem⟩
  · exact hsep
  · exact h word hword c hmem

/-- After a mark at the end there is an empty word. -/
theorem nil_mem_splitOn [BEq α] [LawfulBEq α] {x : α} {l : List α} (h : l.getLast? = some x) :
    [] ∈ l.splitOn x := by
  obtain ⟨cs, rfl⟩ := List.getLast?_eq_some_iff.mp h
  rw [List.splitOn_append_cons_self, List.splitOn_nil]
  simp

/-- A row split at a mark is split at the same places when it is seen
through a map that tells the mark from the rest. -/
theorem splitOn_map {α : Type} [BEq α] [LawfulBEq α] {f : α → α} {x : α}
    (hf : ∀ c, f c = x ↔ c = x) (cs : List α) :
    (cs.map f).splitOn x = (cs.splitOn x).map (List.map f) := by
  induction cs with
  | nil => simp
  | cons c cs ih =>
    rw [List.map_cons, List.splitOn_cons_eq_if_modifyHead, List.splitOn_cons_eq_if_modifyHead, ih]
    by_cases hc : c = x
    · have hfc : f c = x := (hf c).mpr hc
      simp [hc, (hf x).mpr rfl]
    · have hfc : f c ≠ x := fun h => hc ((hf c).mp h)
      simp only [beq_iff_eq, hc, hfc, if_false]
      cases cs.splitOn x <;> rfl

end Lists
