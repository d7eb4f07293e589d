/-
  LambdaSyntax.Proofs.Alternatives — what was expected can be told from the text of it.

  A kind is `NamedAt` an index of a text where its description stands there. The descriptions are chosen
  so that none begins inside another one or in what separates two of them (`apart_table`). So in a row of
  alternatives each is named where it was put and nowhere else (`namedAt_cons`), and the text on a
  list of kinds names each of them exactly once, in listing order, whatever their order and however
  often they come in the list (`oneOf_canonical`).
-/

import Mathlib.Data.List.Dedup
import LambdaSyntax.Hint.Missing

namespace LambdaSyntax.Hint

variable {j k : Kind} {i i' : Nat} {ks js : List Kind} {xs : List String} {x s : String} {w b rest : List Char}

/-- The description of the kind stands in the text at this index. -/
def NamedAt (text : List Char) (k : Kind) (i : Nat) : Prop := k.description.toList <+: text.drop i

/-! ## Descriptions apart from one another -/

/-- What stands between two alternatives. -/
def separators : List String := [", ", " or "]

def codes (cs : List Char) : List Nat := cs.map Char.toNat

/-- Can there be a text that begins with both? -/
def compatible : List Nat → List Nat → Bool
  | m :: ms, n :: ns => m == n && compatible ms ns
  | _, _ => true

/-- In a description with a separator behind it no description begins but that one, at its start. -/
theorem apart_table : (Kind.all.all fun k => separators.all fun s =>
    (List.range (k.description.toList ++ s.toList).length).all fun i => Kind.all.all fun j =>
      !compatible (codes j.description.toList) (codes ((k.description.toList ++ s.toList).drop i)) ||
        (i == 0 && j == k)) = true := by
  decide +kernel

theorem compatible_of_begins (h : w <+: b ++ rest) : compatible (codes w) (codes b) = true := by
  induction w generalizing b with
  | nil => cases b <;> rfl
  | cons c w ih =>
    cases b with
    | nil => rfl
    | cons d b =>
      obtain ⟨rfl, hw⟩ := List.cons_prefix_cons.mp h
      have htail : compatible (codes w) (codes b) = true := ih hw
      simpa [codes, compatible] using htail

/-- A description that begins in another one or in the separator behind it is that other one. -/
theorem apart (hs : s ∈ separators) (hi : i < (k.description.toList ++ s.toList).length)
    (h : NamedAt (k.description.toList ++ s.toList ++ rest) j i) : i = 0 ∧ j = k := by
  rw [NamedAt, List.drop_append_of_le_length (Nat.le_of_lt hi)] at h
  have htable := apart_table
  simp only [List.all_eq_true, List.mem_range, Bool.or_eq_true, Bool.and_eq_true, beq_iff_eq, Bool.not_eq_true'] at htable
  refine (htable k (Kind.mem_all k) s hs i hi j (Kind.mem_all j)).resolve_left ?_
  rw [compatible_of_begins h]
  decide

theorem description_ne_nil (k : Kind) : k.description.toList ≠ [] := by cases k <;> decide

theorem namedAt_single : NamedAt k.description.toList j i ↔ i = 0 ∧ j = k := by
  constructor
  · intro h
    by_cases hi : i < k.description.toList.length
    · have hlonger : NamedAt (k.description.toList ++ ", ".toList ++ []) j i := by
        rw [List.append_nil, NamedAt, List.drop_append_of_le_length (Nat.le_of_lt hi)]
        exact h.trans (List.prefix_append _ _)
      refine apart (by decide) ?_ hlonger
      rw [List.length_append]
      omega
    · rw [NamedAt, List.drop_eq_nil_of_le (Nat.not_lt.mp hi)] at h
      exact absurd (List.prefix_nil.mp h) (description_ne_nil j)
  · rintro ⟨rfl, rfl⟩
    exact List.prefix_rfl

/-- Behind a first alternative and its separator all else is named as without them. -/
theorem namedAt_cons (hs : s ∈ separators) : NamedAt (k.description.toList ++ s.toList ++ rest) j i ↔
    i = 0 ∧ j = k ∨ ∃ n, i = (k.description.toList ++ s.toList).length + n ∧ NamedAt rest j n := by
  constructor
  · intro h
    by_cases hi : i < (k.description.toList ++ s.toList).length
    · exact .inl (apart hs hi h)
    · obtain ⟨n, rfl⟩ := Nat.exists_eq_add_of_le (Nat.not_lt.mp hi)
      rw [NamedAt, List.drop_length_add_append] at h
      exact .inr ⟨n, rfl, h⟩
  · rintro (⟨rfl, rfl⟩ | ⟨n, rfl, h⟩)
    · rw [List.append_assoc]
      exact List.prefix_append _ _
    · rw [NamedAt, List.drop_length_add_append]
      exact h

/-! ## Rows of alternatives -/

/-- The text on a row of kinds. -/
def listing (ks : List Kind) : List Char := (alternatives (ks.map Kind.description)).toList

theorem listing_cons (hks : ks ≠ []) :
    ∃ s ∈ separators, listing (k :: ks) = k.description.toList ++ s.toList ++ listing ks := by
  match ks, hks with
  | [j], _ => exact ⟨" or ", by decide, by simp [listing, alternatives]⟩
  | j :: i :: ks, _ => exact ⟨", ", by decide, by simp [listing, alternatives]⟩

theorem not_namedAt_nothing : ¬NamedAt (listing []) k i := by
  have htable : (Kind.all.all fun k => (List.range 7).all fun i =>
      !compatible (codes k.description.toList) (codes ((listing []).drop i))) = true := by decide +kernel
  simp only [List.all_eq_true, List.mem_range, Bool.not_eq_true'] at htable
  intro h
  by_cases hi : i < 7
  · have halone : k.description.toList <+: (listing []).drop i ++ [] := by rwa [List.append_nil]
    have hboth := compatible_of_begins halone
    rw [htable k (Kind.mem_all k) i hi] at hboth
    cases hboth
  · rw [NamedAt, List.drop_eq_nil_of_le (Nat.not_lt.mp hi)] at h
    exact description_ne_nil k (List.prefix_nil.mp h)

/-- What is named in a row is its first kind, at the start, or what is named in the rest of it. -/
theorem namedAt_listing_cons (first : Kind) (ks : List Kind) : ∃ width, 0 < width ∧ ∀ k i,
    NamedAt (listing (first :: ks)) k i ↔ i = 0 ∧ k = first ∨ ks ≠ [] ∧ ∃ n, i = width + n ∧ NamedAt (listing ks) k n := by
  have hwidth : 0 < first.description.toList.length := List.length_pos_iff.mpr (description_ne_nil first)
  by_cases hks : ks = []
  · subst hks
    have hone : listing [first] = first.description.toList := rfl
    exact ⟨_, hwidth, fun k i => by simp [hone, namedAt_single]⟩
  · obtain ⟨s, hs, hlisting⟩ := listing_cons (k := first) hks
    refine ⟨(first.description.toList ++ s.toList).length, ?_, fun k i => ?_⟩
    · rw [List.length_append]
      omega
    · rw [hlisting, namedAt_cons hs]
      simp [hks]

/-- The kinds of a row, and no others, are named in its text. -/
theorem mem_iff_namedAt : k ∈ ks ↔ ∃ i, NamedAt (listing ks) k i := by
  induction ks with
  | nil => simp [not_namedAt_nothing]
  | cons first ks ih =>
    obtain ⟨width, -, hnamed⟩ := namedAt_listing_cons first ks
    simp only [hnamed]
    rw [List.mem_cons, ih]
    constructor
    · rintro (rfl | ⟨n, hn⟩)
      · exact ⟨0, .inl ⟨rfl, rfl⟩⟩
      · exact ⟨width + n, .inr ⟨List.ne_nil_of_mem (ih.mpr ⟨n, hn⟩), n, rfl, hn⟩⟩
    · rintro ⟨i, ⟨-, rfl⟩ | ⟨-, n, -, hn⟩⟩
      · exact .inl rfl
      · exact .inr ⟨n, hn⟩

/-- Those that are listed first are named first. -/
theorem namedAt_ordered (h : ks.Pairwise fun j k => j.order < k.order) (hj : NamedAt (listing ks) j i)
    (hk : NamedAt (listing ks) k i') : i < i' ↔ j.order < k.order := by
  induction ks generalizing i i' with
  | nil => exact absurd hj not_namedAt_nothing
  | cons first ks ih =>
    obtain ⟨width, hwidth, hnamed⟩ := namedAt_listing_cons first ks
    obtain ⟨hfirst, hrest⟩ := List.pairwise_cons.mp h
    rcases (hnamed j i).mp hj with ⟨rfl, rfl⟩ | ⟨-, n, rfl, hn⟩
    · rcases (hnamed k i').mp hk with ⟨rfl, rfl⟩ | ⟨-, m, rfl, hm⟩
      · simp
      · have horder := hfirst k (mem_iff_namedAt.mpr ⟨m, hm⟩)
        omega
    · have horder := hfirst j (mem_iff_namedAt.mpr ⟨n, hn⟩)
      rcases (hnamed k i').mp hk with ⟨rfl, rfl⟩ | ⟨-, m, rfl, hm⟩
      · omega
      · have hlater := ih hrest hn hm
        omega

/-! ## Expected kinds -/

theorem order_inj (h : j.order = k.order) : j = k := by
  have htable : ∀ j ∈ Kind.all, ∀ k ∈ Kind.all, j.order = k.order → j = k := by decide
  exact htable j (Kind.mem_all j) k (Kind.mem_all k) h

theorem toList_ordered (expected : KindSet) : expected.toList.Pairwise fun j k => j.order < k.order := by
  have hall : Kind.all.Pairwise fun j k => j.order < k.order := by decide
  exact hall.sublist List.filter_sublist

/-- The members of a set are listed as any list of them is once it is sorted and nothing comes twice. -/
theorem toList_ofList (ks : List Kind) :
    (KindSet.ofList ks).toList = ks.dedup.mergeSort fun j k => j.order ≤ k.order := by
  have hnodup : (KindSet.ofList ks).toList.Nodup := (toList_ordered (.ofList ks)).imp fun h heq => by
    subst heq
    exact Nat.lt_irrefl _ h
  have hmem : (KindSet.ofList ks).toList.Perm ks.dedup :=
    (List.perm_ext_iff_of_nodup hnodup ks.nodup_dedup).mpr fun k => by simp
  have hsorted : (ks.dedup.mergeSort fun j k => j.order ≤ k.order).Pairwise fun j k => decide (j.order ≤ k.order) = true :=
    List.pairwise_mergeSort (by simp; omega) (by simp; omega) _
  refine List.Perm.eq_of_pairwise ?_ ((toList_ordered (.ofList ks)).imp Nat.le_of_lt) (by simpa using hsorted)
    (hmem.trans (List.mergeSort_perm _ _).symm)
  exact fun j k _ _ hjk hkj => order_inj (Nat.le_antisymm hjk hkj)

/-- A kind is named in one place at most. -/
theorem namedAt_unique (h : ks.Pairwise fun j k => j.order < k.order) (hi : NamedAt (listing ks) k i)
    (hi' : NamedAt (listing ks) k i') : i = i' := by
  have hle := namedAt_ordered h hi hi'
  have hge := namedAt_ordered h hi' hi
  omega

/-- The text on a list of kinds is that on the list when it is sorted and nothing comes twice. Lists have
    one text exactly if they hold the same kinds: a text names the kinds of its list and no others, each at
    one place, and the places are in listing order. -/
theorem oneOf_canonical (ks js : List Kind) :
    (oneOf (.ofList ks) = oneOf (.ofList js) ↔ ∀ k, k ∈ ks ↔ k ∈ js) ∧
    oneOf (.ofList ks) = alternatives ((ks.dedup.mergeSort fun j k => j.order ≤ k.order).map Kind.description) ∧
    (∀ k ∈ ks, ∃! i, NamedAt (oneOf (.ofList ks)).toList k i) ∧
    (∀ k i, NamedAt (oneOf (.ofList ks)).toList k i → k ∈ ks) ∧
    ∀ j k i i', NamedAt (oneOf (.ofList ks)).toList j i → NamedAt (oneOf (.ofList ks)).toList k i' →
      (i < i' ↔ j.order < k.order) := by
  have hordered := toList_ordered (.ofList ks)
  have hnamed (ks : List Kind) (k : Kind) : k ∈ ks ↔ ∃ i, NamedAt (oneOf (.ofList ks)).toList k i := by
    rw [← KindSet.mem_ofList, ← KindSet.mem_toList]
    exact mem_iff_namedAt
  refine ⟨⟨fun h k => ?_, fun h => ?_⟩, ?_, fun k hk => ?_, fun k i hi => (hnamed ks k).mpr ⟨i, hi⟩,
    fun j k i i' => namedAt_ordered hordered⟩
  · rw [hnamed ks, hnamed js, h]
  · have hset : KindSet.ofList ks = .ofList js := KindSet.ext fun k => by
      rw [KindSet.mem_ofList, KindSet.mem_ofList, h k]
    rw [hset]
  · rw [oneOf, toList_ofList]
  · obtain ⟨i, hi⟩ := (hnamed ks k).mp hk
    exact ⟨i, hi, fun i' hi' => namedAt_unique hordered hi' hi⟩

example : oneOf (.ofList [.finish, .kwThen, .finish]) = "'then' or end of input" := by decide

end LambdaSyntax.Hint
