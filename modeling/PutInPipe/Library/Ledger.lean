import Mathlib.Data.Set.Basic

/-!
# Views kept by announcements

The members of a set change, and a change is announced some time after it was made. A
`Ledger` is the set together with what is still to be announced, as new and as removed.
Whoever keeps a view of the set applies the announcements to it. The view follows the ledger
when it lacks only what is to be announced as new and holds besides the members only what is
to be announced as removed; once nothing is left to be announced, it is the set.
-/

universe u

structure Ledger (α : Type u) where
  stored : Set α
  news : Set α
  removed : Set α

namespace Ledger

variable {α : Type u} {l l' : Ledger α} {view new gone : Set α}

/-- The view differs from the set by what is still to be announced. -/
structure Follows (l : Ledger α) (view : Set α) : Prop where
  heard : l.stored ⊆ view ∪ l.news
  kept : view ⊆ l.stored ∪ l.removed

/-- The ledger goes from `l` to `l'` while `new` and `gone` are announced. A member that is
added is to be announced, and so is one that is removed. What is announced as gone is not in
the set. -/
structure Moves (l l' : Ledger α) (new gone : Set α) : Prop where
  added : l'.stored ⊆ l.stored ∪ l'.news
  taken : l.stored ⊆ l'.stored ∪ l'.removed
  news : l.news ⊆ l'.news ∪ new
  removed : l.removed ⊆ l'.removed ∪ gone
  gone : ∀ i ∈ l.stored, i ∉ gone

/-- The set itself follows. -/
theorem follows_stored (l : Ledger α) :
  l.Follows l.stored
  where
    heard := Set.subset_union_left
    kept := Set.subset_union_left

/-- Once nothing is left to be announced, the view is exact. -/
theorem Follows.eq_stored (h : l.Follows view) (hnews : l.news = ∅) (hremoved : l.removed = ∅) :
  view = l.stored
  := by
  apply Set.Subset.antisymm
  · simpa [hremoved] using h.kept
  · simpa [hnews] using h.heard

/-- A view follows when it hears the announcements, provided that what is announced as new is
a member, or is to be announced as removed. -/
theorem Follows.hear (h : l.Follows view) (hm : l.Moves l' new gone)
    (hnew : new ⊆ l.stored ∪ l.removed) :
  l'.Follows ((view ∪ new) \ gone)
  where
    heard := by
      intro i hi
      obtain hs | hn := hm.added hi
      · have hgone : i ∉ gone := hm.gone i hs
        obtain hv | hn := h.heard hs
        · exact .inl ⟨.inl hv, hgone⟩
        · obtain hn | hp := hm.news hn
          · exact .inr hn
          · exact .inl ⟨.inr hp, hgone⟩
      · exact .inr hn
    kept := by
      rintro i ⟨hi, hgone⟩
      have hi : i ∈ l.stored ∪ l.removed := by
        obtain hv | hp := hi
        · apply h.kept hv
        · apply hnew hp
      obtain hs | hr := hi
      · apply hm.taken hs
      · exact .inr ((hm.removed hr).resolve_right hgone)

/-- A view follows though it misses the announcements, provided that it holds the members
announced as new and nothing of what is announced as gone. -/
theorem Follows.miss (h : l.Follows view) (hm : l.Moves l' new gone)
    (hnew : new ∩ l.stored ⊆ view) (hgone : ∀ i ∈ view, i ∉ gone) :
  l'.Follows view
  where
    heard := by
      intro i hi
      obtain hs | hn := hm.added hi
      · obtain hv | hn := h.heard hs
        · exact .inl hv
        · obtain hn | hp := hm.news hn
          · exact .inr hn
          · exact .inl (hnew ⟨hp, hs⟩)
      · exact .inr hn
    kept := by
      intro i hi
      obtain hs | hr := h.kept hi
      · apply hm.taken hs
      · exact .inr ((hm.removed hr).resolve_right (hgone i hi))

end Ledger
