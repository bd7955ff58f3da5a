import EventModel.Document.Declaration
import EventModel.Proofs.Text.Numerals

/-!
# Written endpoints

The two ids of a flow are read from the texts in which they are written (`WritesEndpoints`) and from
no others (`endpoints?_eq_some_iff`).  Each reader takes as much as it can, so what it takes of a
written text is known from the character that comes next.
-/

namespace EventModel.Declaration

open Text (IsSpacing Reader isSpaceOrTab isSpacing_iff)

/-- Two ids in writing: their decimal forms with the word `to` between them, spaces or tabs on both
sides of the word, and any spaces and tabs in front and behind. -/
def WritesEndpoints (payload : List Char) (source target : ElementId) : Prop :=
  ∃ lead before after tail : List Char,
    IsSpacing lead ∧ (IsSpacing before ∧ before ≠ []) ∧ (IsSpacing after ∧ after ≠ []) ∧
      IsSpacing tail ∧
      payload = lead ++ ((toString source).toList ++ (before ++ (['t', 'o'] ++
        (after ++ ((toString target).toList ++ tail)))))

/-! ## Spaces, and the word between them -/

theorem isSpacing_of_read?_spaces {cs taken left : List Char}
    (h : spaces.read? cs = some (taken, left)) : IsSpacing taken := by
  rw [isSpacing_iff]
  intro c hc
  simpa using Reader.stops_of_mem_taken h hc

theorem read?_spaces_append {as left : List Char} (has : IsSpacing as)
    (hleft : ∀ c, left.head? = some c → isSpaceOrTab c = false) :
    spaces.read? (as ++ left) = some (as, left) :=
  Reader.read?_takeTill_append (fun c hc => by simp [isSpacing_iff.1 has c hc])
    fun c hc => by simp [hleft c hc]

theorem exists_of_read?_joint {cs taken left : List Char}
    (h : joint.read? cs = some (taken, left)) :
    ∃ before after, (IsSpacing before ∧ before ≠ []) ∧ (IsSpacing after ∧ after ≠ []) ∧
      taken = before ++ (['t', 'o'] ++ after) := by
  obtain ⟨before, rest, further, hbefore, hfurther, rfl⟩ := Reader.read?_andThen_eq_some_iff.1 h
  obtain ⟨word, rest', after, hword, hafter, rfl⟩ := Reader.read?_andThen_eq_some_iff.1 hfurther
  obtain ⟨hbefore, hbeforeNe⟩ := Reader.read?_nonempty_eq_some_iff.1 hbefore
  obtain ⟨hafter, hafterNe⟩ := Reader.read?_nonempty_eq_some_iff.1 hafter
  refine ⟨before, after, ⟨isSpacing_of_read?_spaces hbefore, hbeforeNe⟩,
    ⟨isSpacing_of_read?_spaces hafter, hafterNe⟩, ?_⟩
  rw [Reader.taken_of_read?_word hword]

theorem read?_joint_append {before after left : List Char}
    (hbefore : IsSpacing before ∧ before ≠ []) (hafter : IsSpacing after ∧ after ≠ [])
    (hleft : ∀ c, left.head? = some c → isSpaceOrTab c = false) :
    joint.read? (before ++ (['t', 'o'] ++ (after ++ left))) =
      some (before ++ (['t', 'o'] ++ after), left) := by
  have hword : ∀ c, (['t', 'o'] ++ (after ++ left)).head? = some c → isSpaceOrTab c = false := by
    intro c hc
    rw [← Option.some.inj hc]
    decide
  have hfirst : spaces.nonempty.read? (before ++ (['t', 'o'] ++ (after ++ left))) =
      some (before, ['t', 'o'] ++ (after ++ left)) :=
    Reader.read?_nonempty_eq_some_iff.2 ⟨read?_spaces_append hbefore.1 hword, hbefore.2⟩
  have hlast : spaces.nonempty.read? (after ++ left) = some (after, left) :=
    Reader.read?_nonempty_eq_some_iff.2 ⟨read?_spaces_append hafter.1 hleft, hafter.2⟩
  have hfurther : ((Reader.word ['t', 'o']).andThen spaces.nonempty).read?
      (['t', 'o'] ++ (after ++ left)) = some (['t', 'o'] ++ after, left) :=
    Reader.read?_andThen_eq_some_iff.2
      ⟨_, _, after, Reader.read?_word_append _ _, hlast, rfl⟩
  exact Reader.read?_andThen_eq_some_iff.2 ⟨before, _, _, hfirst, hfurther, rfl⟩

/-! ## What comes next -/

theorem isDigit_of_head?_number {id : ElementId} {rest : List Char} {c : Char}
    (h : ((toString id).toList ++ rest).head? = some c) : c.isDigit = true := by
  rw [List.head?_append_of_ne_nil _ (Text.toList_toString_uint32_ne_nil id)] at h
  exact Text.isDigit_of_mem_toString (List.mem_of_head? h)

theorem isSpaceOrTab_of_isDigit {c : Char} (h : c.isDigit = true) : isSpaceOrTab c = false := by
  rw [Bool.eq_false_iff]
  intro hspace
  rcases Text.isSpaceOrTab_iff.1 hspace with rfl | rfl <;> exact absurd h (by decide)

theorem isDigit_of_mem_spacing {cs : List Char} (h : IsSpacing cs) {c : Char} (hc : c ∈ cs) :
    c.isDigit = false := by
  rcases h c hc with rfl | rfl <;> decide

theorem isDigit_of_head?_spacing {cs rest : List Char} (h : IsSpacing cs ∧ cs ≠ []) {c : Char}
    (hc : (cs ++ rest).head? = some c) : c.isDigit = false := by
  rw [List.head?_append_of_ne_nil _ h.2] at hc
  exact isDigit_of_mem_spacing h.1 (List.mem_of_head? hc)

/-! ## Both ids -/

theorem writesEndpoints_of_endpoints? {payload : List Char} {source target : ElementId}
    (h : endpoints? payload = some (source, target)) : WritesEndpoints payload source target := by
  simp only [endpoints?, Option.bind_eq_bind, Option.bind_eq_some_iff, Prod.exists] at h
  obtain ⟨lead, cs₁, hlead, n, cs₂, hsource, between, cs₃, hjoint, m, cs₄, htarget, tail, cs₅,
    htail, hend⟩ := h
  split at hend
  · rename_i hempty
    obtain ⟨rfl, rfl⟩ := Prod.mk.inj (Option.some.inj hend)
    obtain rfl := List.isEmpty_iff.1 hempty
    obtain ⟨before, after, hbefore, hafter, rfl⟩ := exists_of_read?_joint hjoint
    refine ⟨lead, before, after, tail, isSpacing_of_read?_spaces hlead, hbefore, hafter,
      isSpacing_of_read?_spaces htail, ?_⟩
    -- each reader splits what the one before it has left
    calc payload = lead ++ cs₁ := (spaces.taken_append_left hlead).symm
      _ = lead ++ ((toString n).toList ++ cs₂) := by
          rw [Text.eq_append_of_readNatural32? hsource]
      _ = lead ++ ((toString n).toList ++ (before ++ (['t', 'o'] ++ after) ++ cs₃)) := by
          rw [joint.taken_append_left hjoint]
      _ = lead ++ ((toString n).toList ++ (before ++ (['t', 'o'] ++ after) ++
            ((toString m).toList ++ cs₄))) := by rw [Text.eq_append_of_readNatural32? htarget]
      _ = _ := by
          rw [← spaces.taken_append_left htail]
          simp only [List.append_assoc, List.append_nil]
  · exact absurd hend (by simp)

theorem endpoints?_of_writesEndpoints {payload : List Char} {source target : ElementId}
    (h : WritesEndpoints payload source target) :
    endpoints? payload = some (source, target) := by
  obtain ⟨lead, before, after, tail, hlead, hbefore, hafter, htail, rfl⟩ := h
  have hstart : ∀ {id : ElementId} {rest : List Char} (c : Char),
      ((toString id).toList ++ rest).head? = some c → isSpaceOrTab c = false :=
    fun _ hc => isSpaceOrTab_of_isDigit (isDigit_of_head?_number hc)
  have hend : spaces.read? tail = some (tail, []) := by
    have hread : spaces.read? (tail ++ []) = some (tail, []) :=
      read?_spaces_append htail fun c hc => absurd hc (by simp)
    rwa [List.append_nil] at hread
  simp only [endpoints?, Option.bind_eq_bind]
  rw [read?_spaces_append hlead hstart, Option.bind_some,
    Text.readNatural32?_append fun c => isDigit_of_head?_spacing hbefore, Option.bind_some,
    read?_joint_append hbefore hafter hstart, Option.bind_some,
    Text.readNatural32?_append fun c hc => isDigit_of_mem_spacing htail (List.mem_of_head? hc),
    Option.bind_some, hend]
  rfl

/-- The ids of a flow are read from their written forms and from nothing else. -/
theorem endpoints?_eq_some_iff {payload : List Char} {source target : ElementId} :
    endpoints? payload = some (source, target) ↔ WritesEndpoints payload source target :=
  ⟨writesEndpoints_of_endpoints?, endpoints?_of_writesEndpoints⟩

end EventModel.Declaration
