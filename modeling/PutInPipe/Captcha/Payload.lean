import PutInPipe.Captcha.Token

/-!
# The grammar of a private payload

A private payload is written as the payload of the user, the time of creation and the lifetime,
with separators between them, and read from the end, since the payload of the user may hold
separators too. What is read is what the grammar says, but for two kinds of text: `std::stoll`
reads the number a text begins with, whatever follows it and with blanks before it, and a single
separator at the front is found twice, so that the text after it is taken for both numbers.
-/

open Text (Bytes Numeral)

namespace PrivatePayload

variable {string : Bytes} {p : PrivatePayload}

/-- The text is the payload of the user and two complete decimal integers. -/
def Denotes (string : Bytes) (p : PrivatePayload) : Prop :=
  ∃ created lifetime,
    string = p.usersPayload ++ [delimiter] ++ created ++ [delimiter] ++ lifetime
      ∧ Numeral created p.created.toInt ∧ Numeral lifetime p.lifetime.toInt

/-- What is read from the text is what the grammar says. -/
def ReadsGrammar (string : Bytes) : Prop := ∀ p, fromString string = some p ↔ Denotes string p

/-- No number follows a separator that stands alone at the front, and where numbers follow the
last two separators, they are all that follows them. -/
structure NumbersComplete (string : Bytes) : Prop where
  alone : ∀ rest, string = delimiter :: rest → delimiter ∉ rest → Text.stoll rest = none
  complete : ∀ users created lifetime,
    string = users ++ [delimiter] ++ created ++ [delimiter] ++ lifetime →
      delimiter ∉ created → delimiter ∉ lifetime →
      Text.stoll created ≠ none → Text.stoll lifetime ≠ none →
      (∃ n, Numeral created n) ∧ ∃ n, Numeral lifetime n

/-! ### Texts with less than two separators -/

theorem fromString_of_not_mem (h : delimiter ∉ string) :
  fromString string = none
  := by
  rw [fromString]
  split
  · rfl
  · rw [Text.rfind_of_not_mem h]
    rfl

/-- A separator that stands alone, but not at the front, has none before it. -/
theorem fromString_of_alone {users lifetime : Bytes} (hne : users ≠ []) (husers : delimiter ∉ users)
    (hlifetime : delimiter ∉ lifetime) :
  fromString (users ++ delimiter :: lifetime) = none
  := by
  have hpos : 1 ≤ users.length := by
    rw [Nat.one_le_iff_ne_zero]
    simpa using hne
  have hprev : Text.rfind (users ++ delimiter :: lifetime) delimiter
      (Text.minus users.length 1) = none := by
    rw [Text.minus, if_pos hpos, Text.rfind_some, Nat.sub_add_cancel hpos, List.take_left,
      Text.rfind_of_not_mem husers]
  rw [fromString, if_neg (by simp), Text.rfind_append_cons hlifetime]
  simp only [Option.bind_eq_bind, Option.bind_some, hprev, Option.bind_none, ite_self]

/-- A separator that stands alone at the front is found twice. -/
theorem fromString_of_front {rest : Bytes} (hrest : delimiter ∉ rest) :
  fromString (delimiter :: rest) = (Text.stoll rest).map fun n => ⟨[], n, n⟩
  := by
  have hlast : Text.rfind (delimiter :: rest) delimiter none = some 0 :=
    Text.rfind_append_cons (s := []) hrest
  have hprev : Text.rfind (delimiter :: rest) delimiter (Text.minus 0 1) = some 0 := hlast
  have hcreated : Text.substr (delimiter :: rest) (0 + 1) (Text.minus 0 (0 + 1)) = rest := rfl
  have hlifetime : Text.substr (delimiter :: rest) (0 + 1) none = rest := rfl
  rw [fromString, if_neg (by simp), hlast]
  simp only [Option.bind_eq_bind, Option.bind_some, hprev, hcreated, hlifetime, Option.pure_def]
  by_cases hempty : rest = []
  · rw [hempty]
    decide
  · have hlength : rest.length ≠ 0 := by simpa using hempty
    rw [List.length_cons, Nat.add_sub_cancel, if_neg hlength.symm]
    cases Text.stoll rest <;> rfl

/-! ### The grammar -/

theorem not_mem_numeral {s : Bytes} {n : ℤ} (h : Numeral s n) :
  delimiter ∉ s
  := h.not_mem (by decide) (by decide) (by decide)

/-- The parts of a text are unique. -/
theorem parts_inj {users users' created created' lifetime lifetime' : Bytes}
    (hc : delimiter ∉ created) (hc' : delimiter ∉ created') (hl : delimiter ∉ lifetime)
    (hl' : delimiter ∉ lifetime')
    (h : users ++ [delimiter] ++ created ++ [delimiter] ++ lifetime
      = users' ++ [delimiter] ++ created' ++ [delimiter] ++ lifetime') :
  users = users' ∧ created = created' ∧ lifetime = lifetime'
  := by
  rw [List.append_assoc, List.singleton_append, List.append_assoc _ [delimiter] lifetime',
    List.singleton_append] at h
  obtain ⟨hrest, hlifetime⟩ := Text.append_cons_inj hl hl' h
  rw [List.append_assoc, List.singleton_append, List.append_assoc _ [delimiter] created',
    List.singleton_append] at hrest
  obtain ⟨husers, hcreated⟩ := Text.append_cons_inj hc hc' hrest
  exact ⟨husers, hcreated, hlifetime⟩

/-- What the grammar says is read. -/
theorem Denotes.fromString (h : Denotes string p) :
  fromString string = some p
  := by
  obtain ⟨created, lifetime, rfl, hcreated, hlifetime⟩ := h
  rw [fromString_of_parts (not_mem_numeral hcreated) (not_mem_numeral hlifetime),
    Text.stoll_eq_some hcreated, Text.stoll_eq_some hlifetime]
  rfl

/-- A text has less than two separators, or ends with two parts without any. -/
theorem cases_separators (string : Bytes) :
  delimiter ∉ string
    ∨ (∃ rest, string = delimiter :: rest ∧ delimiter ∉ rest)
    ∨ (∃ users lifetime, string = users ++ delimiter :: lifetime ∧ users ≠ []
      ∧ delimiter ∉ users ∧ delimiter ∉ lifetime)
    ∨ ∃ users created lifetime,
      string = users ++ [delimiter] ++ created ++ [delimiter] ++ lifetime
        ∧ delimiter ∉ created ∧ delimiter ∉ lifetime
  := by
  by_cases hmem : delimiter ∈ string
  · right
    obtain ⟨front, lifetime, rfl, hlifetime⟩ := Text.exists_last hmem
    by_cases hfront : delimiter ∈ front
    · right; right
      obtain ⟨users, created, rfl, hcreated⟩ := Text.exists_last hfront
      use users, created, lifetime
      simp [hcreated, hlifetime]
    · by_cases hnil : front = []
      · left
        exact ⟨lifetime, by rw [hnil, List.nil_append], hlifetime⟩
      · right; left
        exact ⟨front, lifetime, rfl, hnil, hfront, hlifetime⟩
  · exact .inl hmem

/-- Reading the parts of a text agrees with the grammar exactly when the numbers that are read
are complete. -/
theorem readsGrammar_parts {created lifetime : Bytes} (hc : delimiter ∉ created)
    (hl : delimiter ∉ lifetime) (users : Bytes) :
  ReadsGrammar (users ++ [delimiter] ++ created ++ [delimiter] ++ lifetime)
    ↔ (Text.stoll created ≠ none → Text.stoll lifetime ≠ none →
        (∃ n, Numeral created n) ∧ ∃ n, Numeral lifetime n)
  := by
  have hread := fromString_of_parts hc hl users
  constructor
  · intro h hcreated hlifetime
    obtain ⟨c, hc'⟩ := Option.ne_none_iff_exists'.mp hcreated
    obtain ⟨l, hl'⟩ := Option.ne_none_iff_exists'.mp hlifetime
    rw [hc', hl'] at hread
    obtain ⟨created', lifetime', heq, hnc, hnl⟩ := (h ⟨users, c, l⟩).mp hread
    obtain ⟨-, rfl, rfl⟩ := parts_inj hc (not_mem_numeral hnc) hl (not_mem_numeral hnl) heq
    exact ⟨⟨_, hnc⟩, _, hnl⟩
  · intro h p
    constructor
    · intro hp
      rw [hread] at hp
      obtain ⟨c, hc', hp⟩ := Option.bind_eq_some_iff.mp hp
      obtain ⟨l, hl', rfl⟩ := Option.map_eq_some_iff.mp hp
      obtain ⟨⟨m, hm⟩, n, hn⟩ := h (by simp [hc']) (by simp [hl'])
      use created, lifetime, rfl
      rw [hm.toInt_eq hc', hn.toInt_eq hl']
      exact ⟨hm, hn⟩
    · apply Denotes.fromString

/-- Where there are less than two separators, the grammar accepts nothing. -/
theorem readsGrammar_of_count_lt (string : Bytes) (h : string.count delimiter < 2) :
  (ReadsGrammar string ↔ fromString string = none)
    ∧ ∀ users created lifetime,
      string ≠ users ++ [delimiter] ++ created ++ [delimiter] ++ lifetime
  := by
  have hno : ∀ users created lifetime,
      string ≠ users ++ [delimiter] ++ created ++ [delimiter] ++ lifetime := by
    rintro users created lifetime rfl
    simp only [List.count_append, List.count_singleton_self] at h
    omega
  refine ⟨?_, hno⟩
  constructor
  · intro hreads
    rw [Option.eq_none_iff_forall_ne_some]
    intro p hp
    obtain ⟨created, lifetime, heq, -⟩ := (hreads p).mp hp
    apply hno _ _ _ heq
  · intro hnone p
    rw [hnone]
    apply iff_of_false
    · apply Option.some_ne_none p ∘ Eq.symm
    · rintro ⟨created, lifetime, heq, -⟩
      apply hno _ _ _ heq

/-- A text is read as the grammar says exactly when the numbers in it are complete and none
follows a separator that stands alone at the front. What was written is always read. -/
theorem readsGrammar_iff (string : Bytes) (written : PrivatePayload) :
  (ReadsGrammar string ↔ NumbersComplete string) ∧ fromString written.dump = some written
  := by
  refine ⟨?_, fromString_dump written⟩
  obtain hnot | ⟨rest, rfl, hrest⟩ | ⟨users, lifetime, rfl, hne, husers, hlifetime⟩ |
    ⟨users, created, lifetime, rfl, hcreated, hlifetime⟩ := cases_separators string
  · obtain ⟨hreads, hno⟩ := readsGrammar_of_count_lt string (by
      rw [List.count_eq_zero_of_not_mem hnot]
      apply Nat.zero_lt_two)
    apply iff_of_true (hreads.mpr (fromString_of_not_mem hnot))
    refine ⟨?_, fun _ _ _ heq => absurd heq (hno _ _ _)⟩
    rintro rest rfl
    cases hnot List.mem_cons_self
  · obtain ⟨hreads, hno⟩ := readsGrammar_of_count_lt (delimiter :: rest) (by
      rw [List.count_cons_self, List.count_eq_zero_of_not_mem hrest]
      apply Nat.one_lt_two)
    rw [hreads, fromString_of_front hrest, Option.map_eq_none_iff]
    constructor
    · intro hnone
      refine ⟨?_, fun _ _ _ heq => absurd heq (hno _ _ _)⟩
      rintro rest' heq -
      rw [← (List.cons.inj heq).2]
      apply hnone
    · exact fun h => h.alone rest rfl hrest
  · obtain ⟨hreads, hno⟩ := readsGrammar_of_count_lt
      (users ++ delimiter :: lifetime) (by
        rw [List.count_append, List.count_cons_self, List.count_eq_zero_of_not_mem husers,
          List.count_eq_zero_of_not_mem hlifetime]
        apply Nat.one_lt_two)
    apply iff_of_true (hreads.mpr (fromString_of_alone hne husers hlifetime))
    refine ⟨?_, fun _ _ _ heq => absurd heq (hno _ _ _)⟩
    intro rest heq
    obtain ⟨c, users, rfl⟩ := List.exists_cons_of_ne_nil hne
    obtain ⟨rfl, -⟩ := List.cons.inj heq
    cases husers List.mem_cons_self
  · rw [readsGrammar_parts hcreated hlifetime]
    constructor
    · intro h
      constructor
      · intro rest heq hrest
        have hcount := congrArg (List.count delimiter) heq
        rw [List.count_cons_self, List.count_eq_zero_of_not_mem hrest] at hcount
        simp only [List.count_append, List.count_singleton_self] at hcount
        omega
      · intro users' created' lifetime' heq hcreated' hlifetime'
        obtain ⟨-, rfl, rfl⟩ := parts_inj hcreated hcreated' hlifetime hlifetime' heq
        apply h
    · exact fun h => h.complete users created lifetime rfl hcreated hlifetime

/-- The text `|5` is read, with the time of creation and the lifetime 5. -/
theorem not_readsGrammar :
  ¬∀ (string : Bytes) (written : PrivatePayload),
    ReadsGrammar string ∧ fromString written.dump = some written
  := by
  intro h
  have hread : fromString [124, 53] = some ⟨[], 5, 5⟩ := by decide
  obtain ⟨created, lifetime, heq, -⟩ := ((h [124, 53] ⟨[], 0, 0⟩).1 ⟨[], 5, 5⟩).mp hread
  apply (readsGrammar_of_count_lt _ (by decide)).2 _ _ _ heq

end PrivatePayload
