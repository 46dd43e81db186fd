import DistributedRdf.UriParsing

namespace DistributedRdf.EnvironmentLoader

open List

open Words (Text)
open Data (indexOf indexOf_singleton indexOf_singleton_eq_none)

/-!
# Environment variables in expressions

The first reference of an expression is looked for, and all places with its text
get the value of the variable, until there is no reference left.
-/

/-- The loop of `String.replace` over a text, some of which is skipped -/
def replaceFrom (target replacement : Text) : Nat → Text → Text
  | _, [] => []
  | skipped + 1, _ :: rest => replaceFrom target replacement skipped rest
  | 0, char :: rest =>
      if target.isPrefixOf (char :: rest) then
        replacement ++ replaceFrom target replacement (target.length - 1) rest
      else
        char :: replaceFrom target replacement 0 rest

/-- `String.replace` for a target that is not empty -/
def replace (target replacement text : Text) : Text :=
  replaceFrom target replacement 0 text

/-- The place from `beginIndex` on, or -1 -/
def indexFrom (str text : Text) (beginIndex : Nat) : Int :=
  match indexOf str (text.drop beginIndex) with
  | some index => beginIndex + index
  | none => -1

variable (expressionValue : Text)

def endIndexOf (beginIndex : Nat) : Int :=
  if beginIndex + 1 < expressionValue.length then
    -- The constant for the opening brace is the closing one.
    if (expressionValue.drop beginIndex).take 1 = ['}'] then
      indexFrom ['}'] expressionValue beginIndex + 1
    else if indexFrom ['/'] expressionValue beginIndex = -1 then
      expressionValue.length
    else
      indexFrom ['/'] expressionValue beginIndex
  else
    expressionValue.length

/-- `variableFullName`; the end is never in front of the begin. -/
def fullNameOf : Text :=
  let beginIndex := expressionValue.idxOf '$'
  (expressionValue.take (endIndexOf expressionValue beginIndex).toNat).drop
    beginIndex

def loadNameOf (variableFullName : Text) : Text :=
  ((variableFullName.filter (· ≠ '$')).filter (· ≠ '{')).filter (· ≠ '}')

/-- The loop, for a number of rounds -/
def loadFromEnvironment
    (getenv : Text → Option Text) :
    Nat → Text → Option Text
  | 0, _ => none
  | rounds + 1, expressionValue =>
      if '$' ∈ expressionValue then
        let variableFullName := fullNameOf expressionValue
        loadFromEnvironment getenv rounds
          (replace variableFullName
            ((getenv (loadNameOf variableFullName)).getD []) expressionValue)
      else
        some expressionValue

/-!
## Expressions
-/

inductive Part where
  | plainText (text : Text)
  | reference (braces : Bool) (name : Text)
  deriving DecidableEq

def Part.isReference : Part → Bool
  | .plainText _ => false
  | .reference _ _ => true

def Part.written : Part → Text
  | .plainText text => text
  | .reference false name => '$' :: name
  | .reference true name => '$' :: '{' :: (name ++ ['}'])

def Part.value (getenv : Text → Option Text) : Part → Text
  | .plainText text => text
  | .reference _ name => (getenv name).getD []

/-- A separator or the end comes next. -/
def EndsHere : List Part → Prop
  | [] => True
  | .plainText text :: _ => text.head? = some '/'
  | .reference _ _ :: _ => False

/-- A plain reference reaches to the next separator or to the end. -/
structure Expression where
  parts : List Part
  texts : ∀ text, .plainText text ∈ parts → '$' ∉ text
  names :
    ∀ braces name, .reference braces name ∈ parts →
      '$' ∉ name ∧ '{' ∉ name ∧ '}' ∉ name ∧ '/' ∉ name
  plains :
    ∀ front name back, parts = front ++ .reference false name :: back →
      EndsHere back

def written (parts : List Part) : Text :=
  parts.flatMap Part.written

theorem written_cons (part : Part) (rest : List Part) :
    written (part :: rest) = part.written ++ written rest :=
  rfl

/-- Every reference replaced by the value of its own variable -/
def expanded (getenv : Text → Option Text) (parts : List Part) : Text :=
  parts.flatMap (Part.value getenv)

/-- The loop ends with the references replaced and the other text unchanged. -/
def Expands (getenv : Text → Option Text) (parts : List Part) : Prop :=
  ∃ rounds,
    loadFromEnvironment getenv rounds (written parts) =
      some (expanded getenv parts)

/--
Where a reference stands for the first time, a separator or the end follows, and
no other one that first stands behind it starts with its text.
-/
structure Separate (parts : List Part) : Prop where
  ends :
    ∀ front reference back, parts = front ++ reference :: back →
      reference.isReference → reference ∉ front → EndsHere back
  distinct :
    ∀ front reference back, parts = front ++ reference :: back →
      reference.isReference → reference ∉ front →
        ∀ later ∈ back, later.isReference → later ∉ front →
          reference.written <+: later.written → later = reference

/-!
## One round
-/

variable {getenv : Text → Option Text}

section Replacement

variable
  {target : Text}
  (replacement : Text)

theorem replaceFrom_skip (skipped rest : Text) :
    replaceFrom target replacement skipped.length (skipped ++ rest) =
      replaceFrom target replacement 0 rest := by
  induction skipped with
  | nil => rfl
  | cons _ _ hypothesis => exact hypothesis

theorem replace_target
    (nonempty : target ≠ [])
    (rest : Text) :
    replace target replacement (target ++ rest) =
      replacement ++ replace target replacement rest := by
  obtain ⟨first, others, rfl⟩ := exists_cons_of_ne_nil nonempty
  have here : (first :: others).isPrefixOf (first :: (others ++ rest)) = true :=
    isPrefixOf_iff_prefix.mpr (prefix_append (first :: others) rest)
  rw [replace, cons_append, replaceFrom, if_pos here, length_cons,
    Nat.add_sub_cancel, replaceFrom_skip, replace]

theorem replace_cons
    {char : Char}
    {rest : Text}
    (notHere : ¬ target <+: char :: rest) :
    replace target replacement (char :: rest) =
      char :: replace target replacement rest := by
  rw [replace, replaceFrom,
    if_neg (mt isPrefixOf_iff_prefix.mp notHere), replace]

/-- The target cannot start in a text without its first character. -/
theorem replace_append
    {first : Char}
    {others front : Text}
    (absent : first ∉ front)
    (rest : Text) :
    replace (first :: others) replacement (front ++ rest) =
      front ++ replace (first :: others) replacement rest := by
  induction front with
  | nil => rfl
  | cons char front hypothesis =>
      obtain ⟨different, absentLater⟩ := not_or.mp (mem_cons.not.mp absent)
      rw [cons_append, replace_cons, hypothesis absentLater,
        cons_append]
      intro starts
      exact different (cons_prefix_cons.mp starts).1

end Replacement

section Round

variable
  {braces : Bool}
  {name : Text}
  (plainName : '$' ∉ name ∧ '{' ∉ name ∧ '}' ∉ name ∧ '/' ∉ name)

include plainName

/-- A reference starts with the only sign of references that it has. -/
theorem written_reference :
    ∃ others,
      (Part.reference braces name).written = '$' :: others ∧
        '$' ∉ others ∧ '/' ∉ (Part.reference braces name).written := by
  cases braces with
  | false => exact ⟨name, rfl, by simp [Part.written, plainName]⟩
  | true =>
      exact ⟨'{' :: (name ++ ['}']), rfl, by simp [Part.written, plainName]⟩

theorem loadNameOf_written :
    loadNameOf (Part.reference braces name).written = name := by
  obtain ⟨noSign, noOpen, noClose, -⟩ := plainName
  have kept :
      ∀ char ∈ name, ¬ char = '}' ∧ ¬ char = '{' ∧ ¬ char = '$' := by
    intro char member
    refine ⟨?_, ?_, ?_⟩ <;> rintro rfl <;> contradiction
  cases braces with
  | false | true => simpa [loadNameOf, Part.written] using kept

omit plainName in
theorem written_eq_nil_or_cons_of_endsHere
    {parts : List Part}
    (ends : EndsHere parts) :
    written parts = [] ∨ ∃ rest, written parts = '/' :: rest := by
  match parts, ends with
  | [], _ => exact .inl rfl
  | .plainText text :: rest, ends =>
      obtain ⟨others, rfl⟩ := head?_eq_some_iff.mp ends
      exact .inr ⟨others ++ written rest, rfl⟩

/-- The name that is found is the text of the first reference. -/
theorem fullNameOf_written
    {front : Text}
    {back : List Part}
    (noSign : '$' ∉ front)
    (ends : EndsHere back) :
    fullNameOf
        (front ++ ((Part.reference braces name).written ++ written back)) =
      (Part.reference braces name).written := by
  obtain ⟨others, isReference, -, noSeparator⟩ :=
    @written_reference braces name plainName
  have found :
      (front ++ ((Part.reference braces name).written ++ written back)).idxOf
          '$' =
        front.length := by
    rw [isReference, cons_append, idxOf_append_of_notMem noSign,
      idxOf_cons_self, Nat.add_zero]
  have behind :
      (front ++ ((Part.reference braces name).written ++ written back)).drop
          front.length =
        (Part.reference braces name).written ++ written back :=
    drop_left
  have noBrace :
      ((Part.reference braces name).written ++ written back).take 1 ≠ ['}'] := by
    rw [isReference]
    simp
  have stops :
      endIndexOf
          (front ++ ((Part.reference braces name).written ++ written back))
          front.length =
        (front ++ (Part.reference braces name).written).length := by
    rw [endIndexOf, indexFrom, indexFrom, behind, if_neg noBrace]
    rcases written_eq_nil_or_cons_of_endsHere ends with
      atEnd | ⟨rest, atSeparator⟩
    · rw [atEnd, append_nil, indexOf_singleton_eq_none noSeparator]
      simp
    · rw [atSeparator, indexOf_singleton noSeparator, isReference]
      simp
      omega
  rw [fullNameOf, found, stops, Int.toNat_natCast, ← append_assoc,
    take_left, drop_left]

end Round

/-!
## The references that are left
-/

/-- The parts with the text of a reference are replaced by the value. -/
def Part.substitute (reference : Part) (value : Text) (part : Part) : Part :=
  if part = reference then .plainText value else part

section Substitution

variable
  {reference : Part}
  {value : Text}
  {parts : List Part}

theorem substitute_plainText
    (isReference : reference.isReference)
    (text : Text) :
    Part.substitute reference value (.plainText text) = .plainText text := by
  refine if_neg ?_
  rintro rfl
  exact absurd isReference (by simp [Part.isReference])

variable {part : Part}

/-- What is still a reference has not been replaced. -/
theorem substitute_eq_reference
    (left : (Part.substitute reference value part).isReference) :
    part ≠ reference ∧ Part.substitute reference value part = part := by
  by_cases same : part = reference
  · rw [Part.substitute, if_pos same] at left
    exact absurd left (by simp [Part.isReference])
  · exact ⟨same, if_neg same⟩

/-- A reference that is left stood where it stands. -/
theorem exists_of_map_substitute
    {front back : List Part}
    (isPart : part.isReference)
    (split :
      parts.map (Part.substitute reference value) = front ++ part :: back) :
    ∃ before after,
      parts = before ++ part :: after ∧ part ≠ reference ∧
        front = before.map (Part.substitute reference value) ∧
        back = after.map (Part.substitute reference value) := by
  obtain ⟨before, others, rfl, isFront, isOthers⟩ := map_eq_append_iff.mp split
  obtain ⟨stood, after, rfl, isPart', isBack⟩ := map_eq_cons_iff.mp isOthers
  obtain ⟨different, same⟩ :=
    substitute_eq_reference (isPart'.symm ▸ isPart)
  rw [same] at isPart'
  subst isPart'
  exact ⟨before, after, rfl, different, isFront.symm, isBack.symm⟩

theorem EndsHere.substitute
    (isReference : reference.isReference)
    (ends : EndsHere parts) :
    EndsHere (parts.map (Part.substitute reference value)) := by
  match parts, ends with
  | [], _ => trivial
  | .plainText text :: rest, ends =>
      rw [map_cons, substitute_plainText isReference]
      exact ends

/-- The values of the parts stay if the reference gets its own value. -/
theorem expanded_substitute :
    expanded getenv
        (parts.map (Part.substitute reference (reference.value getenv))) =
      expanded getenv parts := by
  rw [expanded, expanded, flatMap_map]
  congr 1
  funext part
  by_cases same : part = reference
  · rw [Part.substitute, if_pos same, same]
    rfl
  · rw [Part.substitute, if_neg same]

theorem countP_substitute_le (parts : List Part) :
    (parts.map (Part.substitute reference value)).countP Part.isReference ≤
      parts.countP Part.isReference := by
  rw [countP_map]
  refine countP_mono_left fun part _ left => ?_
  have unchanged := (substitute_eq_reference left).2
  exact unchanged ▸ left

theorem countP_substitute_lt
    {front back : List Part}
    (isReference : reference.isReference)
    (split : parts = front ++ reference :: back) :
    (parts.map (Part.substitute reference value)).countP Part.isReference <
      parts.countP Part.isReference := by
  have inFront := @countP_substitute_le reference value front
  have inBack := @countP_substitute_le reference value back
  have replaced :
      ¬ (Part.substitute reference value reference).isReference := by
    rw [Part.substitute, if_pos rfl]
    simp [Part.isReference]
  rw [split, map_append, map_cons, countP_append,
    countP_append, countP_cons_of_pos isReference,
    countP_cons_of_neg replaced]
  omega

theorem Separate.substitute
    (isReference : reference.isReference)
    (separate : Separate parts) :
    Separate (parts.map (Part.substitute reference value)) := by
  have absent
      {part : Part}
      {before : List Part}
      (different : part ≠ reference)
      (notLeft : part ∉ before.map (Part.substitute reference value)) :
      part ∉ before := by
    intro member
    refine notLeft (mem_map.mpr ⟨part, member, if_neg different⟩)
  constructor
  · intro front part back split isPart notInFront
    obtain ⟨before, after, stood, different, rfl, rfl⟩ :=
      exists_of_map_substitute isPart split
    exact (separate.ends before part after stood isPart
      (absent different notInFront)).substitute isReference
  · intro front part back split isPart notInFront later inBack isLater
      notBefore starts
    obtain ⟨before, after, stood, different, rfl, rfl⟩ :=
      exists_of_map_substitute isPart split
    obtain ⟨same, inAfter, isSame⟩ := mem_map.mp inBack
    obtain ⟨otherThan, unchanged⟩ :=
      substitute_eq_reference (isSame.symm ▸ isLater)
    rw [unchanged] at isSame
    subst isSame
    exact separate.distinct before part after stood isPart
      (absent different notInFront) same inAfter isLater
      (absent otherThan notBefore) starts

/-- The expression with the value in the places of a reference -/
def Expression.substitute
    (expression : Expression)
    (isReference : reference.isReference)
    (noSign : '$' ∉ value) : Expression where
  parts := expression.parts.map (Part.substitute reference value)
  texts := by
    intro text member
    obtain ⟨part, inParts, isText⟩ := mem_map.mp member
    by_cases same : part = reference
    · rw [Part.substitute, if_pos same] at isText
      cases isText
      exact noSign
    · rw [Part.substitute, if_neg same] at isText
      exact expression.texts text (isText ▸ inParts)
  names := by
    intro braces name member
    obtain ⟨part, inParts, isPart⟩ := mem_map.mp member
    have left : (Part.substitute reference value part).isReference := by
      rw [isPart]
      rfl
    obtain ⟨-, unchanged⟩ := substitute_eq_reference left
    exact expression.names braces name (unchanged.symm.trans isPart ▸ inParts)
  plains := by
    intro front name back split
    obtain ⟨before, after, stood, -, rfl, rfl⟩ :=
      exists_of_map_substitute rfl split
    exact (expression.plains before name after stood).substitute isReference

end Substitution

section Rounds

variable
  {expression : Expression}
  {front back : List Part}
  {braces : Bool}
  {name : Text}

/-- The text of a reference does not go on with a longer one. -/
theorem written_reference_maximal
    {otherBraces : Bool}
    {otherName rest : Text}
    {char : Char}
    (plainName : '$' ∉ name ∧ '{' ∉ name ∧ '}' ∉ name ∧ '/' ∉ name)
    (longer :
      (Part.reference braces name).written =
        (Part.reference otherBraces otherName).written ++ char :: rest) :
    otherBraces = false := by
  obtain ⟨-, noOpen, noClose, -⟩ := plainName
  cases otherBraces with
  | false => rfl
  | true =>
      cases braces with
      | false =>
          simp only [Part.written, cons_append, cons.injEq,
            true_and] at longer
          exact absurd (longer ▸ mem_cons_self) noOpen
      | true =>
          simp only [Part.written, cons_append, cons.injEq,
            true_and, append_assoc, nil_append] at longer
          have inName := congrArg dropLast longer
          rw [dropLast_concat, dropLast_append_of_ne_nil (by simp),
            dropLast_cons_of_ne_nil (by simp)] at inName
          exact absurd (inName ▸ by simp) noClose

variable (separate : Separate expression.parts)

include separate

section

variable (split : expression.parts = front ++ .reference braces name :: back)

include split

variable (isFirst : ∀ part ∈ front, ¬ part.isReference)

include isFirst

theorem not_written_prefix
    {before rest : List Part}
    {otherBraces : Bool}
    {otherName : Text}
    (stands :
      expression.parts = before ++ .reference otherBraces otherName :: rest)
    (different :
      Part.reference otherBraces otherName ≠ .reference braces name) :
    ¬ (Part.reference braces name).written <+:
      (Part.reference otherBraces otherName).written ++ written rest := by
  intro starts
  have plainName := expression.names braces name (by simp [split])
  have notInFront
      (braces : Bool)
      (name : Text) : Part.reference braces name ∉ front :=
    fun member => isFirst _ member rfl
  have inBack : Part.reference otherBraces otherName ∈ back := by
    have member : Part.reference otherBraces otherName ∈ expression.parts := by
      simp [stands]
    simpa [split, notInFront, different] using member
  have apart :
      ¬ (Part.reference braces name).written <+:
        (Part.reference otherBraces otherName).written :=
    fun within => different (separate.distinct front _ back split rfl
      (notInFront braces name) _ inBack rfl (notInFront _ _) within)
  rcases prefix_or_prefix_of_prefix starts
    (prefix_append _ _) with within | ⟨others, longer⟩
  · exact apart within
  · obtain ⟨-, -, -, noSeparator⟩ :=
      @written_reference braces name plainName
    cases others with
    | nil => exact apart ⟨[], by simpa using longer.symm⟩
    | cons char others =>
        have isPlain := written_reference_maximal plainName longer.symm
        subst isPlain
        rw [← longer, prefix_append_right_inj] at starts
        rcases written_eq_nil_or_cons_of_endsHere
          (expression.plains before otherName rest stands) with
            atEnd | ⟨after, atSeparator⟩
        · rw [atEnd] at starts
          exact absurd starts (by simp)
        · rw [atSeparator] at starts
          obtain ⟨rfl, -⟩ := cons_prefix_cons.mp starts
          exact noSeparator (longer ▸ by simp)

/-- The value takes the places of the reference and no others. -/
theorem replace_written
    (value : Text) :
    replace (Part.reference braces name).written value
        (written expression.parts) =
      written (expression.parts.map
        (Part.substitute (.reference braces name) value)) := by
  have plainName := expression.names braces name (by simp [split])
  obtain ⟨signless, isWritten, -, -⟩ :=
    @written_reference braces name plainName
  have suffixes
      (before suffix : List Part)
      (stands : expression.parts = before ++ suffix) :
      replace (Part.reference braces name).written value (written suffix) =
        written (suffix.map
          (Part.substitute (.reference braces name) value)) := by
    induction suffix generalizing before with
    | nil => rfl
    | cons part rest hypothesis =>
        have later := hypothesis (before ++ [part]) (by simp [stands])
        rw [map_cons, written_cons, written_cons, ← later]
        cases part with
        | plainText text =>
            rw [substitute_plainText rfl, isWritten]
            exact replace_append value
              (expression.texts text (by simp [stands])) _
        | reference otherBraces otherName =>
            by_cases same :
                Part.reference otherBraces otherName = .reference braces name
            · rw [same, Part.substitute, if_pos rfl]
              exact replace_target value (by simp [isWritten]) _
            · have notHere :=
                not_written_prefix separate split isFirst stands same
              obtain ⟨others, isOther, noSign, -⟩ :=
                @written_reference otherBraces otherName
                  (expression.names otherBraces otherName (by simp [stands]))
              rw [Part.substitute, if_neg same]
              rw [isOther, cons_append] at notHere ⊢
              rw [replace_cons value notHere, isWritten,
                replace_append value noSign, cons_append]
  exact suffixes [] _ rfl

/-- A round replaces the first reference. -/
theorem loadFromEnvironment_succ
    (rounds : Nat) :
    loadFromEnvironment getenv (rounds + 1) (written expression.parts) =
      loadFromEnvironment getenv rounds
        (written (expression.parts.map
          (Part.substitute (.reference braces name)
            ((getenv name).getD [])))) := by
  have plainName := expression.names braces name (by simp [split])
  have noSign : '$' ∉ written front := by
    intro member
    obtain ⟨part, inFront, inPart⟩ := mem_flatMap.mp member
    cases part with
    | plainText text => exact expression.texts text (by simp [split, inFront]) inPart
    | reference braces name => exact isFirst _ inFront rfl
  have parts :
      written expression.parts =
        written front ++
          ((Part.reference braces name).written ++ written back) := by
    simp [written, split]
  obtain ⟨others, isWritten, -, -⟩ :=
    @written_reference braces name plainName
  have hasReference : '$' ∈ written expression.parts := by
    simp [parts, isWritten]
  have ends : EndsHere back :=
    separate.ends front _ back split rfl fun member => isFirst _ member rfl
  rw [loadFromEnvironment, if_pos hasReference]
  simp only
  rw [← replace_written separate split isFirst, parts,
    fullNameOf_written plainName noSign ends, loadNameOf_written plainName]

end

theorem expands_of_no_sign
    (noSign : ∀ part ∈ expression.parts, '$' ∉ part.value getenv) :
    Expands getenv expression.parts := by
  -- Every round leaves fewer references.
  induction counted : expression.parts.countP Part.isReference
    using Nat.strong_induction_on generalizing expression with
  | _ references hypothesis =>
    cases first : expression.parts.find? Part.isReference with
    | none =>
        have texts := find?_eq_none.mp first
        have same : written expression.parts = expanded getenv expression.parts := by
          refine flatMap_congr fun part member => ?_
          cases part with
          | plainText text => rfl
          | reference braces name => exact absurd rfl (texts _ member)
        refine ⟨1, ?_⟩
        rw [loadFromEnvironment, same, if_neg]
        intro inValue
        obtain ⟨part, member, inPart⟩ := mem_flatMap.mp inValue
        exact noSign part member inPart
    | some part =>
        obtain ⟨isReference, front, back, split, before⟩ :=
          find?_eq_some_iff_append.mp first
        have isFirst : ∀ part ∈ front, ¬ part.isReference := by
          simpa using before
        cases part with
        | plainText text => exact absurd isReference (by simp [Part.isReference])
        | reference braces name =>
            have valueNoSign : '$' ∉ (getenv name).getD [] :=
              noSign (.reference braces name) (by simp [split])
            let next := expression.substitute isReference valueNoSign
            have fewer : next.parts.countP Part.isReference < references :=
              counted ▸ countP_substitute_lt isReference split
            have stillNoSign :
                ∀ part ∈ next.parts, '$' ∉ part.value getenv := by
              intro part member
              obtain ⟨stood, inParts, rfl⟩ := mem_map.mp member
              by_cases same : stood = .reference braces name
              · rw [Part.substitute, if_pos same]
                exact valueNoSign
              · rw [Part.substitute, if_neg same]
                exact noSign stood inParts
            obtain ⟨rounds, returned⟩ := hypothesis _ fewer
              (separate.substitute isReference) stillNoSign rfl
            refine ⟨rounds + 1, ?_⟩
            rw [loadFromEnvironment_succ separate split isFirst]
            exact returned.trans (congrArg some expanded_substitute)

end Rounds

/-- What the loop ends with has no sign of references. -/
theorem no_sign_of_loadFromEnvironment
    {rounds : Nat}
    {expressionValue outcome : Text}
    (returned :
      loadFromEnvironment getenv rounds expressionValue = some outcome) :
    '$' ∉ outcome := by
  induction rounds generalizing expressionValue with
  | zero => exact absurd returned (by simp [loadFromEnvironment])
  | succ rounds hypothesis =>
      rw [loadFromEnvironment] at returned
      split at returned
      case isTrue => exact hypothesis returned
      case isFalse noSign =>
        cases returned
        exact noSign

/--
If the references are separate, they are expanded exactly if no value that is
asked for has the sign of references.
-/
theorem expands_iff
    {expression : Expression}
    (separate : Separate expression.parts) :
    Expands getenv expression.parts ↔
      ∀ part ∈ expression.parts, '$' ∉ part.value getenv := by
  constructor
  · rintro ⟨rounds, returned⟩ part inParts inValue
    refine no_sign_of_loadFromEnvironment returned ?_
    exact mem_flatMap.mpr ⟨part, inParts, inValue⟩
  · exact expands_of_no_sign separate

/-- `$HOME/v${VERSION}` -/
def installation : Expression where
  parts :=
    [.reference false "HOME".toList, .plainText "/v".toList,
      .reference true "VERSION".toList]
  texts := by simp
  names := by simp
  plains := by
    intro front name back split
    rcases front with _ | ⟨_, _ | ⟨_, _ | ⟨_, _⟩⟩⟩ <;> simp at split
    obtain ⟨-, rfl⟩ := split
    rfl

theorem separate_installation : Separate installation.parts where
  ends := by
    intro front reference back split isReference _
    rcases front with _ | ⟨_, _ | ⟨_, _ | ⟨_, _⟩⟩⟩ <;>
      simp [installation] at split
    · obtain ⟨-, rfl⟩ := split
      rfl
    · obtain ⟨-, rfl, -⟩ := split
      exact absurd isReference (by simp [Part.isReference])
    · obtain ⟨-, -, -, rfl⟩ := split
      trivial
  distinct := by
    intro front reference back split isReference _ later inBack isLater _ starts
    rcases front with _ | ⟨_, _ | ⟨_, _ | ⟨_, _⟩⟩⟩ <;>
      simp [installation] at split
    · obtain ⟨rfl, rfl⟩ := split
      rcases mem_pair.mp inBack with rfl | rfl
      · exact absurd isLater (by simp [Part.isReference])
      · exact absurd starts (by decide)
    · obtain ⟨-, rfl, -⟩ := split
      exact absurd isReference (by simp [Part.isReference])
    · obtain ⟨-, -, -, rfl⟩ := split
      exact absurd inBack not_mem_nil

def homeOnly (name : Text) : Option Text :=
  if name = "HOME".toList then some "/home".toList else none

theorem expands_installation : Expands homeOnly installation.parts :=
  (expands_iff separate_installation).mpr (by decide)

/-- `${HOME}s` -/
def suffixed : Expression where
  parts := [.reference true "HOME".toList, .plainText "s".toList]
  texts := by simp
  names := by simp
  plains := by
    intro front name back split
    rcases front with _ | ⟨_, _ | ⟨_, _⟩⟩ <;> simp at split

/-- The text behind the brace is taken for the end of the name. -/
theorem not_expands_suffixed : ¬ Expands homeOnly suffixed.parts := by
  rintro ⟨rounds, returned⟩
  match rounds, returned with
  | 0, returned => exact absurd returned (by simp [loadFromEnvironment])
  | 1, returned => exact absurd returned (by decide)
  | rounds + 2, returned =>
      have emptied :
          loadFromEnvironment homeOnly (rounds + 2) (written suffixed.parts) =
            some [] := by
        rfl
      rw [emptied] at returned
      exact absurd returned (by decide)

end DistributedRdf.EnvironmentLoader
