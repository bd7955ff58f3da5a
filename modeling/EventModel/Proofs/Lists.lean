import Mathlib.Data.List.Basic
import Mathlib.Data.List.Induction
import Mathlib.Data.List.Forall2
import Mathlib.Data.List.Nodup

/-!
# Lists

Of several entries that are taken for the same, a document counts the first.  What is left has
the order of the whole (`eraseDupsBy_sublist`), finds what the whole finds
(`find?_eraseDupsBy_key`), holds no key twice (`pairwise_eraseDupsBy_key`), and grows by an entry
at a time (`eraseDupsBy_loop_concat`).  What is made of some entries of a list has their order, too
(`map_filterMap_sublist`), with keys that are not repeated one entry answers to a key
(`filterMap_of_key`), lines that are joined with line feeds come apart there (`splitOn_join_lines`),
and one separator leaves two pieces (`splitOnP_eq_pair_iff`).
-/

namespace EventModel

theorem eraseDupsBy_loop_concat {α : Type} (r : α → α → Bool) (a : α) (as seen : List α) :
    List.eraseDupsBy.loop r (as ++ [a]) seen =
      if (List.eraseDupsBy.loop r as seen).any (r a) then List.eraseDupsBy.loop r as seen
      else List.eraseDupsBy.loop r as seen ++ [a] := by
  induction as generalizing seen with
  | nil =>
      rw [List.nil_append, List.eraseDupsBy.loop, List.eraseDupsBy.loop]
      cases h : seen.any (r a) <;> simp [List.eraseDupsBy.loop, h]
  | cons b as ih =>
      rw [List.cons_append, List.eraseDupsBy.loop, List.eraseDupsBy.loop]
      cases seen.any (r b) with
      | true => exact ih seen
      | false => exact ih (b :: seen)

theorem eraseDupsBy_sublist {α : Type} (r : α → α → Bool) (as : List α) :
    (as.eraseDupsBy r).Sublist as := by
  match as with
  | [] => exact List.Sublist.refl _
  | a :: as =>
      rw [List.eraseDupsBy_cons]
      exact ((eraseDupsBy_sublist r _).trans List.filter_sublist).cons_cons a
termination_by as.length
decreasing_by exact Nat.lt_succ_of_le (List.length_filter_le _ as)

/-- What is erased comes after an entry with the same key. -/
theorem find?_eraseDupsBy_key {α κ : Type} [BEq κ] [LawfulBEq κ] (key : α → κ) (k : κ)
    (as : List α) :
    (as.eraseDupsBy fun a b => key a == key b).find? (key · == k) = as.find? (key · == k) := by
  match as with
  | [] => rfl
  | a :: as =>
      rw [List.eraseDupsBy_cons, List.find?_cons, List.find?_cons]
      by_cases ha : key a = k
      · simp only [ha, beq_self_eq_true]
      · rw [find?_eraseDupsBy_key key k, List.find?_filter]
        simp only [beq_eq_false_iff_ne.2 ha]
        congr 1
        funext b
        by_cases hb : key b = k
        · simp [hb, Ne.symm ha]
        · simp [hb]
termination_by as.length
decreasing_by exact Nat.lt_succ_of_le (List.length_filter_le _ as)

/-- No key is left twice. -/
theorem pairwise_eraseDupsBy_key {α κ : Type} [BEq κ] [LawfulBEq κ] (key : α → κ) (as : List α) :
    (as.eraseDupsBy fun a b => key a == key b).Pairwise fun a b => key a ≠ key b := by
  match as with
  | [] => exact List.Pairwise.nil
  | a :: as =>
      rw [List.eraseDupsBy_cons, List.pairwise_cons]
      refine ⟨fun b hb heq => ?_, pairwise_eraseDupsBy_key key _⟩
      have hkept := (List.mem_filter.1 ((eraseDupsBy_sublist _ _).subset hb)).2
      rw [heq, beq_self_eq_true] at hkept
      exact absurd hkept (by decide)
termination_by as.length
decreasing_by exact Nat.lt_succ_of_le (List.length_filter_le _ as)

/-- What keeps keys can be done before or after erasing. -/
theorem eraseDupsBy_key_map {α β κ : Type} [BEq κ] {f : α → β} {key : α → κ} {key' : β → κ}
    (hf : ∀ a, key' (f a) = key a) (as : List α) :
    ((as.map f).eraseDupsBy fun a b => key' a == key' b) =
      (as.eraseDupsBy fun a b => key a == key b).map f := by
  match as with
  | [] => rfl
  | a :: as =>
      rw [List.map_cons, List.eraseDupsBy_cons, List.eraseDupsBy_cons, List.map_cons,
        List.filter_map, eraseDupsBy_key_map hf]
      simp only [Function.comp_def, hf]
termination_by as.length
decreasing_by exact Nat.lt_succ_of_le (List.length_filter_le _ as)

theorem mem_map_eraseDupsBy_key {α κ : Type} [BEq κ] [LawfulBEq κ] {key : α → κ} {k : κ}
    {as : List α} :
    k ∈ (as.eraseDupsBy fun a b => key a == key b).map key ↔ k ∈ as.map key := by
  have hfound (bs : List α) : k ∈ bs.map key ↔ (bs.find? (key · == k)).isSome = true := by
    rw [List.find?_isSome, List.mem_map]
    simp only [beq_iff_eq]
  rw [hfound, hfound, find?_eraseDupsBy_key]

/-- Where a key belongs to one entry at most, look-up finds the entry that has it. -/
theorem find?_key_eq_some_iff {α κ : Type} [BEq κ] [LawfulBEq κ] {key : α → κ} {as : List α}
    (hkey : ∀ a ∈ as, ∀ b ∈ as, key a = key b → a = b) {k : κ} {a : α} :
    as.find? (key · == k) = some a ↔ a ∈ as ∧ key a = k := by
  constructor
  · intro h
    exact ⟨List.mem_of_find?_eq_some h, by simpa using List.find?_some h⟩
  · rintro ⟨ha, rfl⟩
    have hsome : (as.find? (key · == key a)).isSome = true :=
      List.find?_isSome.2 ⟨a, ha, beq_self_eq_true _⟩
    obtain ⟨b, hb⟩ := Option.isSome_iff_exists.1 hsome
    have hsame : key b = key a := by simpa using List.find?_some hb
    rw [hb, hkey b (List.mem_of_find?_eq_some hb) a ha hsame]

/-- Keys are left in the order in which they first occur. -/
theorem pairwise_idxOf_eraseDupsBy_key {α κ : Type} [BEq κ] [LawfulBEq κ] (key : α → κ)
    (as : List α) :
    ((as.eraseDupsBy fun a b => key a == key b).map key).Pairwise fun k l =>
      (as.map key).idxOf k < (as.map key).idxOf l := by
  induction as using List.reverseRecOn with
  | nil => exact List.Pairwise.nil
  | append_singleton as a ih =>
      have hold : ∀ k ∈ (as.eraseDupsBy fun a b => key a == key b).map key, k ∈ as.map key :=
        fun k => mem_map_eraseDupsBy_key.1
      have hkept : ((as.eraseDupsBy fun a b => key a == key b).map key).Pairwise fun k l =>
          (as.map key ++ [key a]).idxOf k < (as.map key ++ [key a]).idxOf l := by
        refine ih.imp_of_mem fun {k l} hk hl hlt => ?_
        rw [List.idxOf_append_of_mem (hold k hk), List.idxOf_append_of_mem (hold l hl)]
        exact hlt
      rw [List.map_append, List.map_singleton, List.eraseDupsBy, eraseDupsBy_loop_concat]
      split
      · exact hkept
      · rename_i hnew
        have hfresh : key a ∉ as.map key := by
          intro hmem
          obtain ⟨b, hb, hsame⟩ := List.mem_map.1 (mem_map_eraseDupsBy_key.2 hmem)
          exact hnew (List.any_eq_true.2 ⟨b, hb, beq_iff_eq.2 hsame.symm⟩)
        rw [List.map_append, List.map_singleton, List.pairwise_append]
        refine ⟨hkept, List.pairwise_singleton _ _, fun k hk l hl => ?_⟩
        have hlt := List.idxOf_lt_length_of_mem (hold k hk)
        rw [List.mem_singleton.1 hl, List.idxOf_append_of_mem (hold k hk),
          List.idxOf_append_of_notMem hfresh]
        omega

/-- The entry is the first in a list that has a property. -/
def IsFirst {α : Type} (as : List α) (p : α → Prop) (a : α) : Prop :=
  ∃ before after, as = before ++ a :: after ∧ p a ∧ ∀ b ∈ before, ¬p b

theorem find?_eq_some_iff_isFirst {α : Type} {p : α → Bool} {as : List α} {a : α} :
    as.find? p = some a ↔ IsFirst as (fun b => p b = true) a := by
  rw [List.find?_eq_some_iff_append, IsFirst]
  simp only [Bool.not_eq_true', Bool.not_eq_true]
  constructor
  · rintro ⟨ha, before, after, has, hbefore⟩
    exact ⟨before, after, has, ha, hbefore⟩
  · rintro ⟨before, after, has, ha, hbefore⟩
    exact ⟨ha, before, after, has, hbefore⟩

theorem map_filterMap_sublist {α β κ : Type} {f : α → Option β} {key : α → κ} {key' : β → κ}
    (h : ∀ a b, f a = some b → key' b = key a) (as : List α) :
    ((as.filterMap f).map key').Sublist (as.map key) := by
  induction as with
  | nil => exact List.Sublist.refl _
  | cons a as ih =>
      cases ha : f a with
      | none =>
          rw [List.filterMap_cons_none ha, List.map_cons]
          exact ih.cons _
      | some b =>
          rw [List.filterMap_cons_some ha, List.map_cons, List.map_cons, h a b ha]
          exact ih.cons_cons _

theorem map_eq_map_iff_forall₂ {α β γ : Type} {f : α → γ} {g : β → γ} {as : List α}
    {bs : List β} : as.map f = bs.map g ↔ List.Forall₂ (fun a b => f a = g b) as bs := by
  rw [← List.forall₂_eq_eq_eq, List.forall₂_map_left_iff, List.forall₂_map_right_iff]

theorem exists_of_forall₂ {α β : Type} {R : α → β → Prop} {as : List α} {bs : List β}
    (h : List.Forall₂ R as bs) {a : α} (ha : a ∈ as) : ∃ b ∈ bs, R a b := by
  induction h with
  | nil => exact absurd ha List.not_mem_nil
  | @cons c b cs bs hcb _ ih =>
      rcases List.mem_cons.1 ha with rfl | ha
      · exact ⟨b, List.mem_cons_self, hcb⟩
      · obtain ⟨b', hb', hab'⟩ := ih ha
        exact ⟨b', List.mem_cons_of_mem b hb', hab'⟩

/-- Exactly the entries with a property lead to something. -/
theorem forall₂_filter_filterMap {α β : Type} {R : α → β → Prop} {p : α → Bool} {f : α → Option β}
    {as : List α} (hsome : ∀ a ∈ as, p a = true → ∃ b, f a = some b ∧ R a b)
    (hnone : ∀ a ∈ as, p a = false → f a = none) :
    List.Forall₂ R (as.filter p) (as.filterMap f) := by
  induction as with
  | nil => exact List.Forall₂.nil
  | cons a as ih =>
      have hrest := ih (fun b hb => hsome b (List.mem_cons_of_mem a hb))
        (fun b hb => hnone b (List.mem_cons_of_mem a hb))
      cases hp : p a with
      | true =>
          obtain ⟨b, hb, hab⟩ := hsome a List.mem_cons_self hp
          rw [List.filter_cons_of_pos hp, List.filterMap_cons_some hb]
          exact List.Forall₂.cons hab hrest
      | false =>
          rw [List.filter_cons_of_neg (by simp [hp]),
            List.filterMap_cons_none (hnone a List.mem_cons_self hp)]
          exact hrest

/-- What some entries with a property lead to, paired with something else that is said of them. -/
theorem zip_map_filter_filterMap {α β γ : Type} {p : α → Bool} {f : α → Option β} {g : α → γ}
    {as : List α} (h : ∀ a ∈ as, p a = (f a).isSome) :
    ((as.filter p).map g).zip (as.filterMap f) = as.filterMap fun a => (f a).map (g a, ·) := by
  induction as with
  | nil => rfl
  | cons a as ih =>
      have hrest := ih fun b hb => h b (List.mem_cons_of_mem a hb)
      have ha := h a List.mem_cons_self
      cases hf : f a with
      | none =>
          rw [hf, Option.isSome_none] at ha
          rw [List.filter_cons_of_neg (by simp [ha]), List.filterMap_cons_none hf,
            List.filterMap_cons_none (by rw [hf]; rfl), hrest]
      | some b =>
          rw [hf, Option.isSome_some] at ha
          rw [List.filter_cons_of_pos ha, List.filterMap_cons_some hf,
            List.filterMap_cons_some (by rw [hf]; rfl), List.map_cons, List.zip_cons_cons, hrest]

/-- With keys that are not repeated, only one entry answers to a key. -/
theorem filterMap_of_key {α β κ : Type} [DecidableEq κ] {key : α → κ} {f : α → Option β}
    {as : List α} (hkeys : (as.map key).Nodup) {a : α} (ha : a ∈ as) :
    as.filterMap (fun b => if key b = key a then f b else none) = (f a).toList := by
  obtain ⟨front, back, rfl⟩ := List.append_of_mem ha
  rw [List.map_append, List.map_cons, List.nodup_middle, List.nodup_cons, List.mem_append,
    not_or] at hkeys
  have hnone : ∀ bs : List α, key a ∉ bs.map key →
      bs.filterMap (fun b => if key b = key a then f b else none) = [] := by
    intro bs hbs
    rw [List.filterMap_eq_nil_iff]
    intro b hb
    refine if_neg fun heq => hbs ?_
    rw [← heq]
    exact List.mem_map_of_mem hb
  rw [List.filterMap_append, List.filterMap_cons, if_pos rfl, hnone front hkeys.1.1,
    hnone back hkeys.1.2]
  cases f a <;> rfl

theorem filterMap_zipIdx_fst {α β : Type} (f : α → Option β) (as : List α) :
    as.zipIdx.filterMap (fun p => f p.1) = as.filterMap f := by
  calc
    as.zipIdx.filterMap (fun p => f p.1) = (as.zipIdx.map Prod.fst).filterMap f := by
      rw [List.filterMap_map]
      rfl
    _ = as.filterMap f := by rw [List.zipIdx_map_fst]

/-- What is made of entries and their positions has the same positions. -/
theorem zipIdx_map_zipIdx {α β : Type} (f : α × ℕ → β) (as : List α) :
    (as.zipIdx.map f).zipIdx = as.zipIdx.map fun p => (f p, p.2) := by
  apply List.ext_getElem
  · simp
  · intro i _ _
    simp

/-- Lines that are ended by a line feed each are split there again. -/
theorem splitOn_flatMap_lines {lines : List (List Char)} (h : ∀ l ∈ lines, '\n' ∉ l) :
    (lines.flatMap (· ++ ['\n'])).splitOn '\n' = lines ++ [[]] := by
  induction lines with
  | nil => rfl
  | cons l ls ih =>
      rw [List.flatMap_cons, List.append_assoc, List.singleton_append,
        List.splitOn_append_cons_self_of_not_mem (h l List.mem_cons_self),
        ih fun k hk => h k (List.mem_cons_of_mem l hk), List.cons_append]

theorem splitOn_join_lines {lines : List String} (h : ∀ l ∈ lines, '\n' ∉ l.toList) :
    (String.join (lines.map (· ++ "\n"))).toList.splitOn '\n' =
      lines.map String.toList ++ [[]] := by
  have hjoin : (String.join (lines.map (· ++ "\n"))).toList =
      (lines.map String.toList).flatMap (· ++ ['\n']) := by
    rw [String.toList_join, List.flatMap_map, List.flatMap_map]
    apply List.flatMap_congr
    intro line _
    rw [String.toList_append]
    rfl
  rw [hjoin, splitOn_flatMap_lines]
  exact List.forall_mem_map.2 h

theorem length_splitOnP {α : Type} (p : α → Bool) (as : List α) :
    (as.splitOnP p).length = as.countP p + 1 := by
  induction as with
  | nil => rfl
  | cons a as ih =>
      rw [List.splitOnP_cons_eq_if_modifyHead, List.countP_cons]
      split
      · rw [List.length_cons, ih]
      · rw [List.length_modifyHead, ih, Nat.add_zero]

theorem exists_of_countP_eq_one {α : Type} {p : α → Bool} {as : List α} (h : as.countP p = 1) :
    ∃ front sep back, as = front ++ sep :: back ∧ p sep = true ∧ (∀ a ∈ front, p a = false) ∧
      ∀ a ∈ back, p a = false := by
  obtain ⟨sep, hmem, hsep⟩ := List.countP_pos_iff.1 (by omega : 0 < as.countP p)
  obtain ⟨front, back, rfl⟩ := List.append_of_mem hmem
  rw [List.countP_append, List.countP_cons_of_pos hsep] at h
  have hnone : ∀ bs : List α, bs.countP p = 0 → ∀ a ∈ bs, p a = false := fun bs hbs a ha => by
    simpa using List.countP_eq_zero.1 hbs a ha
  exact ⟨front, sep, back, rfl, hsep, hnone front (by omega), hnone back (by omega)⟩

/-- A list is cut in two just where one entry tells to cut. -/
theorem splitOnP_eq_pair_iff {α : Type} {p : α → Bool} {as front back : List α} :
    as.splitOnP p = [front, back] ↔
      ∃ sep, as = front ++ sep :: back ∧ p sep = true ∧ (∀ a ∈ front, p a = false) ∧
        ∀ a ∈ back, p a = false := by
  constructor
  · intro h
    have hcount : as.countP p = 1 := by
      have hlength := length_splitOnP p as
      rw [h] at hlength
      exact (Nat.succ.inj hlength).symm
    obtain ⟨front', sep, back', rfl, hsep, hfront, hback⟩ := exists_of_countP_eq_one hcount
    rw [List.splitOnP_append_cons_of_forall_mem hfront sep hsep,
      List.splitOnP_eq_singleton hback] at h
    obtain ⟨rfl, htail⟩ := List.cons.inj h
    obtain ⟨rfl, -⟩ := List.cons.inj htail
    exact ⟨sep, rfl, hsep, hfront, hback⟩
  · rintro ⟨sep, rfl, hsep, hfront, hback⟩
    rw [List.splitOnP_append_cons_of_forall_mem hfront sep hsep,
      List.splitOnP_eq_singleton hback]

theorem one_lt_length_of_ne {α : Type} {a b : α} {as : List α} (ha : a ∈ as) (hb : b ∈ as)
    (hne : a ≠ b) : 1 < as.length := by
  match as with
  | [] => exact absurd ha List.not_mem_nil
  | [c] => exact absurd ((List.mem_singleton.1 ha).trans (List.mem_singleton.1 hb).symm) hne
  | c :: c' :: as =>
      simp only [List.length_cons]
      omega

theorem filter_eq_ite {α : Type} {p : α → Bool} {b : Bool} {as : List α}
    (h : ∀ a ∈ as, p a = b) : as.filter p = if b then as else [] := by
  cases b with
  | true => exact List.filter_eq_self.2 h
  | false => exact List.filter_eq_nil_iff.2 fun a ha => by rw [h a ha]; decide

end EventModel
