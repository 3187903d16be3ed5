/-
# Keys of properties as references

The key of a property is any kind of reference, or an identifier alone. Which of the two a
key is taken for is decided by its characters, and the allowed schemes have no say in it. An
absolute reference without its brackets is therefore recognised where it holds a colon or
begins like a variable; any other is `Overlooked`, and what is left is an identifier, which
stands for another term, or nothing at all.

`reference_eq_ok_iff_of_bare` says what a reference is that does not look like one. None is
overlooked where every scheme is `Distinctive` (`Distinctive.not_overlooked`), and under
any other scheme one is (`exists_overlooked`). The last section takes terms as keys.
-/

import SparqlText.Proofs.Term.Normal

namespace SparqlText.Term

variable {config : RenderConfig} {given key scheme : Text} {term : Term}

/-! ## The two readings of a key -/

/-- A key, without white space around it, that is taken for a reference. -/
def LooksLikeReference (key : Text) : Prop :=
  key = keyword.text ∨ key.head? = some '<' ∨ hasVariableMark key = true ∨ ':' ∈ key

theorem looksLikeReference_iff :
    (key = keyword.text || key.head? == some '<' || hasVariableMark key || key.contains ':') =
      true ↔ LooksLikeReference key := by
  simp [LooksLikeReference, or_assoc]

/-- A key that is taken for a reference is resolved like one. -/
theorem predicate_of_looksLikeReference (looks : LooksLikeReference (Text.trim given)) :
    predicate config given = reference config given := by
  rw [predicate, if_pos (looksLikeReference_iff.mpr looks), reference_trim]

/-- Any other key is an identifier, whatever schemes are allowed. -/
theorem predicate_of_bare (bare : ¬LooksLikeReference (Text.trim given)) :
    predicate config given =
      (checkIdentifier (Text.trim given)).map fun _ => ⟨':' :: Text.trim given⟩ := by
  rw [predicate, if_neg (mt looksLikeReference_iff.mp bare)]
  cases checkIdentifier (Text.trim given) <;> rfl

/-- A reference that does not look like one is an absolute reference by its scheme. -/
theorem reference_eq_ok_iff_of_bare (bare : ¬LooksLikeReference (Text.trim given)) :
    reference config given = .ok term ↔
      config.allows (Text.trim given) = true ∧
        (∀ char ∈ Text.trim given, isForbidden char = false) ∧
        term = ⟨'<' :: Text.trim given ++ ['>']⟩ := by
  rw [reference]
  generalize Text.trim given = key at bare ⊢
  simp only [LooksLikeReference, not_or] at bare
  obtain ⟨other, opened, marked, colon⟩ := bare
  have unopened : (key.head? == some '<') = false := beq_eq_false_iff_ne.mpr opened
  have whole : withoutBrackets key = key := by
    cases key with
    | nil => rfl
    | cons first rest =>
        have apart : first ≠ '<' := fun same => opened (congrArg some same)
        simp [withoutBrackets, apart]
  rw [resolved, if_neg other, unopened, Bool.false_or]
  by_cases allowed : config.allows key = true
  · rw [if_pos allowed, iri_eq_ok_iff, whole]
  · have unlabelled : ¬blankMark.isPrefixOf key = true := by
      intro lead
      have begins := List.isPrefixOf_iff_prefix.mp lead
      exact colon (begins.mem (by decide))
    have uncoloned : ¬key.contains ':' = true := mt List.contains_iff_mem.mp colon
    rw [if_neg allowed, if_neg marked, if_neg unlabelled, if_neg uncoloned]
    refine ⟨fun refused => ?_, fun absolute => absurd absolute.1 allowed⟩
    cases refused

/-! ## Overlooked references -/

/-- A key, without white space around it, that has an allowed scheme and is taken for an
identifier nevertheless. -/
structure Overlooked (config : RenderConfig) (key : Text) : Prop where
  allowed : config.allows key = true
  bare : ¬LooksLikeReference key

/-- A reference is the same term as a key exactly where it is not overlooked. -/
theorem predicate_eq_reference_iff (accepted : reference config given = .ok term) :
    predicate config given = .ok term ↔ ¬Overlooked config (Text.trim given) := by
  by_cases looks : LooksLikeReference (Text.trim given)
  · rw [predicate_of_looksLikeReference looks]
    exact iff_of_true accepted fun overlooked => overlooked.bare looks
  · obtain ⟨allowed, -, rfl⟩ := (reference_eq_ok_iff_of_bare looks).mp accepted
    refine iff_of_false ?_ (not_not_intro ⟨allowed, looks⟩)
    rw [predicate_of_bare looks]
    cases checkIdentifier (Text.trim given) <;> simp [Except.map]

/-! ## Schemes -/

/-- A scheme none of whose references is overlooked: each of them holds a colon or begins like
a variable, or there are none, because the scheme has a character that may not stand in a
reference or begins with white space. -/
inductive Distinctive (scheme : Text) : Prop
  | colon (member : ':' ∈ scheme)
  | marked (marked : hasVariableMark scheme = true)
  | forbidden {char : Char} (member : char ∈ scheme) (unfit : isForbidden char = true)
  | blank {first : Char} (leads : scheme.head? = some first) (space : Text.isBlank first = true)

theorem head?_of_begins {first : Char} (leads : scheme.head? = some first)
    (begins : scheme <+: key) : key.head? = some first := by
  obtain ⟨rest, rfl⟩ := begins
  rw [List.head?_append, leads]
  rfl

theorem hasVariableMark_of_begins (marked : hasVariableMark scheme = true)
    (begins : scheme <+: key) : hasVariableMark key = true := by
  simp only [hasVariableMark, Bool.or_eq_true, beq_iff_eq] at marked ⊢
  exact marked.imp (head?_of_begins · begins) (head?_of_begins · begins)

/-- No text begins with white space once that is taken away. -/
theorem isBlank_of_head?_trim {first : Char} (leads : (Text.trim given).head? = some first) :
    Text.isBlank first = false := by
  have begins : Text.trim given <+: Text.trimStart given := List.rdropWhile_prefix Text.isBlank _
  have stop := List.head?_dropWhile_not Text.isBlank given
  rw [Text.trimStart] at begins
  rw [head?_of_begins leads begins] at stop
  exact stop

/-- A reference is not overlooked by a scheme that prevents it. -/
theorem Distinctive.not_overlooked
    (distinctive : ∀ scheme ∈ config.allowedSchemes, Distinctive scheme)
    (accepted : reference config given = .ok term) : ¬Overlooked config (Text.trim given) := by
  rintro ⟨allowed, bare⟩
  obtain ⟨-, clean, -⟩ := (reference_eq_ok_iff_of_bare bare).mp accepted
  obtain ⟨scheme, among, lead⟩ := List.any_eq_true.mp allowed
  have begins : scheme <+: Text.trim given := List.isPrefixOf_iff_prefix.mp lead
  cases distinctive scheme among with
  | colon member => exact bare (.inr (.inr (.inr (begins.mem member))))
  | marked marked => exact bare (.inr (.inr (.inl (hasVariableMark_of_begins marked begins))))
  | forbidden member unfit =>
      rw [clean _ (begins.mem member)] at unfit
      cases unfit
  | blank leads space =>
      rw [isBlank_of_head?_trim (head?_of_begins leads begins)] at space
      cases space

/-- Any other scheme has a reference that is overlooked: two letters behind it are enough. -/
theorem exists_overlooked (among : scheme ∈ config.allowedSchemes)
    (indistinct : ¬Distinctive scheme) :
    ∃ given term, reference config given = .ok term ∧ Overlooked config (Text.trim given) := by
  have uncoloned : ':' ∉ scheme := fun member => indistinct (.colon member)
  have unmarked : ¬hasVariableMark scheme = true := fun marked => indistinct (.marked marked)
  have clean : ∀ char ∈ scheme, isForbidden char = false :=
    fun char member => Bool.eq_false_iff.mpr fun unfit => indistinct (.forbidden member unfit)
  have visible (first : Char) (leads : scheme.head? = some first) : Text.isBlank first = false :=
    Bool.eq_false_iff.mpr fun space => indistinct (.blank leads space)
  have kept : Text.trim (scheme ++ ['x', 'y']) = scheme ++ ['x', 'y'] := by
    cases scheme with
    | nil => rfl
    | cons first rest =>
        have whole := Text.trim_between (visible first rfl) (rfl : Text.isBlank 'y' = false)
          (rest ++ ['x'])
        simpa using whole
  have bare : ¬LooksLikeReference (scheme ++ ['x', 'y']) := by
    rintro (same | opened | marked | member)
    · have size := congrArg List.length same
      simp [keyword] at size
    · cases scheme with
      | nil => cases opened
      | cons first rest =>
          cases opened
          exact absurd (clean '<' List.mem_cons_self) (by decide)
    · cases scheme with
      | nil => cases marked
      | cons first rest => exact unmarked marked
    · cases List.mem_append.mp member with
      | inl member => exact uncoloned member
      | inr member => exact absurd member (by decide)
  have allowed : config.allows (scheme ++ ['x', 'y']) = true :=
    List.any_eq_true.mpr
      ⟨scheme, among, List.isPrefixOf_iff_prefix.mpr (List.prefix_append _ _)⟩
  refine ⟨scheme ++ ['x', 'y'], ⟨'<' :: (scheme ++ ['x', 'y']) ++ ['>']⟩, ?_, ?_⟩
  · rw [reference_eq_ok_iff_of_bare (kept.symm ▸ bare), kept]
    refine ⟨allowed, ?_, rfl⟩
    intro char member
    cases List.mem_append.mp member with
    | inl member => exact clean char member
    | inr member =>
        cases List.mem_pair.mp member with
        | inl same => subst same; rfl
        | inr same => subst same; rfl
  · rw [kept]
    exact ⟨allowed, bare⟩

/-! ## Keys against references -/

/-- A text that is accepted as a reference is the same term as the key of a property, unless it
is overlooked; an overlooked one is between brackets as a reference, and as a key it is a name
in the default namespace if it is an identifier, and is refused otherwise. Nothing is
overlooked under a configuration exactly where all of its schemes are distinctive. -/
theorem predicate_extends_reference (config : RenderConfig) :
    (∀ given term, reference config given = .ok term →
      (predicate config given = .ok term ↔ ¬Overlooked config (Text.trim given)) ∧
      (Overlooked config (Text.trim given) →
        term = ⟨'<' :: Text.trim given ++ ['>']⟩ ∧
          predicate config given =
            (checkIdentifier (Text.trim given)).map fun _ => ⟨':' :: Text.trim given⟩)) ∧
    ((∀ given term, reference config given = .ok term → predicate config given = .ok term) ↔
      ∀ scheme ∈ config.allowedSchemes, Distinctive scheme) := by
  refine ⟨fun given term accepted => ⟨predicate_eq_reference_iff accepted, ?_⟩, ?_, ?_⟩
  · intro overlooked
    obtain ⟨-, -, same⟩ := (reference_eq_ok_iff_of_bare overlooked.bare).mp accepted
    exact ⟨same, predicate_of_bare overlooked.bare⟩
  · intro agree scheme among
    by_contra indistinct
    obtain ⟨given, term, accepted, overlooked⟩ := exists_overlooked among indistinct
    exact (predicate_eq_reference_iff accepted).mp (agree given term accepted) overlooked
  · intro distinctive given term accepted
    exact (predicate_eq_reference_iff accepted).mpr
      (Distinctive.not_overlooked distinctive accepted)

/-- Where a solidus is allowed as a scheme, an absolute path is a reference and no key. -/
theorem key_under_scheme_without_colon :
    let config : RenderConfig := { allowedSchemes := [['/']] }
    reference config "/x".toList = .ok ⟨"</x>".toList⟩ ∧
      predicate config "/x".toList ≠ .ok ⟨"</x>".toList⟩ := by
  decide

/-! ## Terms as keys -/

/-- The text of a form has no white space around it, and looks like a reference. -/
theorem Form.looksLikeReference (form : Form config key) :
    LooksLikeReference (Text.trim key) := by
  have kept : Text.trim key = key := by
    rcases form.reference_or_name with ⟨inner, rfl, -⟩ | ⟨-, named⟩
    · exact Text.trim_between rfl rfl inner
    · exact Text.trim_eq_self fun char member => isBlank_of_isNameChar (named char member)
  rw [kept]
  cases form with
  | keyword => exact .inl rfl
  | iri => exact .inr (.inl rfl)
  | var => exact .inr (.inr (.inl rfl))
  | blank => exact .inr (.inr (.inr (by simp [blankMark])))
  | prefixed => exact .inr (.inr (.inr (by simp)))

/-- A name in the default namespace is resolved to itself where no scheme makes it an absolute
reference. -/
theorem reference_defaultName {name : Text} (named : Name.isIdentifier name = true)
    (apart : config.allows (':' :: name) = false) :
    reference config (':' :: name) = .ok ⟨':' :: name⟩ := by
  have words := Name.isWord_of_mem_isIdentifier named
  have solid : ∀ char ∈ ':' :: name, Text.isBlank char = false :=
    List.forall_mem_cons.mpr
      ⟨rfl, fun char member => isBlank_of_isNameChar (isNameChar_of_isWord (words char member))⟩
  have other : ':' :: name ≠ keyword.text := by simp [keyword]
  have written : prefixed [] name = .ok ⟨':' :: name⟩ :=
    prefixed_eq_ok_iff.mpr ⟨.inl rfl, Name.isLocal_of_isIdentifier named, rfl⟩
  rw [reference, Text.trim_eq_self solid, resolved, if_neg other, apart]
  exact curie_eq_ok_iff.mpr ⟨[], name, rfl, List.not_mem_nil, written⟩

/-- The text of a term that a key was resolved to is itself a key of that term, where no scheme
begins with the mark of a variable or of the default namespace. -/
theorem predicate_text (marked : ∀ name, config.allows ('?' :: name) = false)
    (unnamed : ∀ name, config.allows (':' :: name) = false)
    (accepted : predicate config given = .ok term) : predicate config term.text = .ok term := by
  rw [predicate_of_looksLikeReference (form_of_predicate accepted).looksLikeReference]
  by_cases looks : LooksLikeReference (Text.trim given)
  · rw [predicate_of_looksLikeReference looks] at accepted
    exact reference_text marked accepted
  · rw [predicate_of_bare looks] at accepted
    cases checked : checkIdentifier (Text.trim given) with
    | error reason =>
        rw [checked] at accepted
        cases accepted
    | ok =>
        rw [checked] at accepted
        cases accepted
        exact reference_defaultName (checkIdentifier_eq_ok_iff.mp checked) (unnamed _)

end SparqlText.Term
