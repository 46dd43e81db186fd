import DistributedRdf.InterfaceLayouts

namespace DistributedRdf.CBinding

open Words List Declaration Parameter Direction TypeWord CImplementation
open Piper (DataType)

/-!
# Signatures of core elements

For a declaration without a result, a class and unsigned types the words that
the runtime cuts are three for each argument.  It takes from them the types that
the stub passes, and both ends write the same signature.
-/

/-! ## Plain declarations -/

variable (arg : DeclaredArgument)

/-- Both ends give the argument the same type: one end knows the directions,
and of the types of input arguments those that have one name and are no type of
the other end. -/
def DeclaredArgument.IsPlain : Prop :=
  match arg.type with
  | .unsigned _ => False
  | .named classname => arg.dir = .inDir → classname ≠ "byte".toList
  | .basic type =>
      if arg.dir = .inDir then
        type ∈ [.file, .boolean, .char, .int, .float, .double, .short, .long,
          .string]
      else
        type ≠ .any

instance (arg : DeclaredArgument) : Decidable arg.IsPlain := by
  unfold DeclaredArgument.IsPlain
  cases arg.type <;> infer_instance

/-- No result, which excludes static functions, no class, and an argument -/
structure Declaration.IsPlain (decl : Declaration) : Prop where
  noResult : decl.returnType = .basic .void
  noClass : ':' ∉ decl.name
  someArgument : decl.arguments ≠ []
  arguments : ∀ arg, arg ∈ decl.arguments → arg.IsPlain

/-! ## Types -/

/-- The types of return values, which no argument has -/
def isReturnType (type : DataType) : Bool :=
  type ∈ [.object, .psco, .externalPsco]

theorem paramTypeText_outputs
    {dir : Direction}
    {word : Text}
    (output : dir ≠ .inDir) :
    paramTypeText dir.text word = typeText .file := by
  cases dir with
  | inDir => exact absurd rfl output
  | outDir => rfl
  | inoutDir => rfl

theorem paramTypeText_named
    {classname : Text}
    (identifier : IsIdentifier classname)
    (notByte : classname ≠ "byte".toList) :
    paramTypeText inDir.text classname = typeText .file := by
  have other : ∀ text, text ∈ keywords → classname ≠ text :=
    fun text member same => identifier.noKeyword (same ▸ member)
  have noInout : toUpperCase inDir.text ≠ "INOUT".toList := by decide
  have noOut : toUpperCase inDir.text ≠ "OUT".toList := by decide
  unfold paramTypeText
  rw [if_neg noInout, if_neg noOut]
  by_cases isFile : toUpperCase classname = "FILE".toList
  · rw [if_pos isFile]
    rfl
  rw [if_neg isFile, if_neg (other "boolean".toList (by decide)),
    if_neg (other "char".toList (by decide)),
    if_neg (other "int".toList (by decide)),
    if_neg (other "float".toList (by decide)),
    if_neg (other "double".toList (by decide)), if_neg notByte,
    if_neg (other "short".toList (by decide)),
    if_neg (other "long".toList (by decide)),
    if_neg (other "string".toList (by decide))]
  rfl

variable {arg}

/-- The parser and the stub give the argument the same type. -/
theorem DeclaredArgument.IsPlain.exists_type
    (plain : arg.IsPlain)
    (derived : arg.type.IsDerived)
    (notVoid : arg.type.datatype ≠ .void) :
    ∃ type word,
      runtimeType
        (.argument ⟨arg.name, arg.type.datatype, arg.dir⟩) = some type ∧
      arg.type.words = [word] ∧
      paramTypeText arg.dir.text word = typeText type ∧
      isReturnType type = false := by
  obtain ⟨dir, type, name⟩ := arg
  cases type with
  | unsigned type => exact plain.elim
  | named classname =>
      refine ⟨.file, classname, ?_, rfl, ?_, rfl⟩
      · cases dir <;> rfl
      · cases dir with
        | inDir => exact paramTypeText_named derived (plain rfl)
        | outDir | inoutDir => exact paramTypeText_outputs nofun
  | basic type =>
      cases dir with
      | inDir =>
          have inputType : type ∈ [file, .boolean, .char, .int, .float,
            .double, .short, .long, .string] := plain
          simp only [mem_cons, not_mem_nil, or_false] at inputType
          rcases inputType with
            rfl | rfl | rfl | rfl | rfl | rfl | rfl | rfl | rfl
          all_goals exact ⟨_, _, rfl, rfl, rfl, rfl⟩
      | outDir | inoutDir =>
          have notAny : type ≠ .any := plain
          cases type
          case any => exact absurd rfl notAny
          case void => exact absurd rfl notVoid
          all_goals exact ⟨_, _, rfl, rfl, rfl, rfl⟩

theorem paramTypes_argument
    {paramDirection paramType name : Text}
    {rest types : List Text}
    (ofRest : paramTypes rest = .ok types) :
    paramTypes ([paramDirection, paramType, name] ++ rest) =
      .ok (paramTypeText paramDirection paramType :: types) := by
  change paramTypes (paramDirection :: paramType :: name :: rest) = _
  rw [paramTypes, ofRest]
  rfl

/-- The parser reads the types of the arguments that the stub passes. -/
theorem exists_types
    {args : List DeclaredArgument}
    (plain : ∀ arg, arg ∈ args → arg.IsPlain)
    (derived : ∀ arg, arg ∈ args → arg.type.IsDerived)
    (noVoid : ∀ arg, arg ∈ args → arg.type.datatype ≠ .void) :
    ∃ types : List DataType,
      (args.map fun arg => argument
        ⟨arg.name, arg.type.datatype, arg.dir⟩).mapM runtimeType =
          some types ∧
      paramTypes (args.flatMap DeclaredArgument.words) =
        .ok (types.map typeText) ∧
      types.length = args.length ∧
      ∀ type, type ∈ types → isReturnType type = false := by
  induction args with
  | nil => exact ⟨[], rfl, rfl, rfl, nofun⟩
  | cons arg rest hypothesis =>
      obtain ⟨types, passed, read, length, noReturn⟩ := hypothesis
        (fun other member => plain other (mem_cons_of_mem arg member))
        (fun other member => derived other (mem_cons_of_mem arg member))
        (fun other member => noVoid other (mem_cons_of_mem arg member))
      obtain ⟨type, word, isPassed, isWord, isRead, isNoReturn⟩ :=
        (plain arg mem_cons_self).exists_type
          (derived arg mem_cons_self) (noVoid arg mem_cons_self)
      refine ⟨type :: types, ?_, ?_, congrArg (· + 1) length, ?_⟩
      · rw [map_cons, mapM_cons, isPassed, passed]
        rfl
      · have three : arg.words = [arg.dir.text, word, arg.name] := by
          rw [DeclaredArgument.words, isWord]
          rfl
        rw [flatMap_cons, three, map_cons, ← isRead]
        exact paramTypes_argument read
      · intro other member
        rcases mem_cons.mp member with rfl | member
        · exact isNoReturn
        · exact noReturn other member

/-! ## Signatures -/

theorem deleteLastComma_append {buffer : Text} :
    deleteLastComma (buffer ++ [',']) = .ok buffer := by
  simp [deleteLastComma]

variable {types : List Text}

theorem flatMap_comma
    (nonempty : types ≠ []) :
    types.flatMap (· ++ [',']) = [','].intercalate types ++ [','] := by
  induction types with
  | nil => exact absurd rfl nonempty
  | cons type rest hypothesis =>
      cases rest with
      | nil => rw [flatMap_singleton, intercalate_singleton]
      | cons next rest =>
          rw [flatMap_cons, hypothesis (cons_ne_nil _ _),
            intercalate_cons_cons, append_assoc, append_assoc,
            append_assoc]

variable (implementation : CImplementation)

/-- The signature that both ends mean -/
def CImplementation.signature
    (types : List Text) :
    Text :=
  implementation.methodName ++ '(' ::
    ([','].intercalate types ++ ')' :: implementation.className)

variable {implementation}

/-- The last comma is deleted where there is one. -/
theorem signatureText_eq
    (nonempty : types ≠ []) :
    signatureText implementation types =
      .ok (implementation.signature types) := by
  have buffer : implementation.methodName ++ '(' :: types.flatMap (· ++ [',']) =
      (implementation.methodName ++ '(' :: [','].intercalate types) ++ [','] := by
    rw [flatMap_comma nonempty, append_assoc, cons_append]
  rw [signatureText, buffer, deleteLastComma_append]
  simp [signature, bind, Except.bind, pure, Except.pure]

/-- The name is what stands before the types in a signature. -/
theorem callSignature_name
    {func : Function}
    {signature : Text}
    (noParenthesis : '(' ∉ func.name)
    (isSignature : callSignature func = some signature) :
    signature.takeWhile (· ≠ '(') = func.name := by
  obtain ⟨types, -, same⟩ := Option.bind_eq_some_iff.mp isSignature
  obtain rfl := Option.some.inj same
  have before : ∀ char, char ∈ func.name → decide (char ≠ '(') = true :=
    fun char member => decide_eq_true fun same => noParenthesis (same ▸ member)
  rw [getSignature, takeWhile_append_of_pos before]
  simp

variable {name : Text}

theorem beforeSeparator_eq_none
    (noColon : ':' ∉ name) :
    beforeSeparator name = none := by
  induction name with
  | nil => rfl
  | cons char rest hypothesis =>
      have notColon : ¬ (char = ':' ∧ rest.head? = some ':') := fun colon =>
        noColon (colon.1 ▸ mem_cons_self)
      rw [beforeSeparator, if_neg notColon, hypothesis fun member =>
        noColon (mem_cons_of_mem char member)]
      rfl

/-- A name without a class is an implementation of no class. -/
theorem loadCImplementation_eq
    (identifier : IsIdentifier name)
    (noClass : ':' ∉ name) :
    loadCImplementation name = ⟨"NULL".toList, name⟩ := by
  have noAnnotation : ¬ startsWith name "@Implements".toList = true := by
    intro annotation
    obtain ⟨more, rfl⟩ := isPrefixOf_iff_prefix.mp annotation
    exact absurd identifier.start Bool.false_ne_true
  rw [loadCImplementation, if_neg noAnnotation, implementationOf,
    beforeSeparator_eq_none noClass]

section Plain

variable {decl : Declaration}

section

variable (plain : decl.IsPlain)

include plain

theorem Declaration.IsPlain.not_static
    (derived : decl.IsDerived) :
    decl.isStatic = false := by
  refine Bool.eq_false_iff.mpr fun isStatic => ?_
  obtain ⟨classname, named⟩ := derived.static isStatic
  exact absurd (named.symm.trans plain.noResult) nofun

theorem Declaration.IsPlain.tokenWords_eq
    (derived : decl.IsDerived) :
    tokenWords decl.tokens =
      "void".toList :: decl.name ::
        decl.arguments.flatMap DeclaredArgument.words := by
  rw [tokenWords_tokens, plain.not_static derived, plain.noResult]
  rfl

/-- A plain function has no implicit parameters. -/
theorem Declaration.IsPlain.parameters_eq :
    decl.function.parameters = decl.arguments.map fun arg =>
      argument ⟨arg.name, arg.type.datatype, arg.dir⟩ := by
  have noMethod : decl.function.isMethod = false := by
    rw [Function.isMethod, function, classname,
      if_neg plain.noClass]
    rfl
  have noResult : ¬ decl.function.returnType ≠ .void := by
    simp [function, plain.noResult, DeclaredType.datatype,
      datatype]
  rw [Function.parameters, noMethod, if_neg Bool.false_ne_true, if_neg noResult]
  simp [function]

end

variable {types : List DataType}

theorem hasReturn_eq_false
    {lastIsOut : Bool}
    (noReturn : ∀ type, type ∈ types → isReturnType type = false) :
    hasReturn types lastIsOut = false := by
  unfold hasReturn
  split
  · rename_i type isLast
    rw [Bool.and_eq_false_iff]
    exact .inr (noReturn type (mem_of_getLast? isLast))
  · rfl

/-- Without a target and a result all types are in the signature. -/
theorem getSignature_eq
    {declaringClass methodName : Text}
    (noReturn : ∀ type, type ∈ types → isReturnType type = false) :
    getSignature declaringClass methodName false false types =
      methodName ++ '(' :: ([','].intercalate (types.map typeText) ++
        ')' :: declaringClass) := by
  have kept : (types.map fun type =>
      if type = .psco then DataType.object else type) = types := by
    refine (map_congr_left fun type member => ?_).trans (map_id _)
    rw [if_neg]
    · rfl
    · rintro rfl
      exact absurd (noReturn _ member) (by decide)
  simp only [getSignature, Bool.toNat_false, Nat.sub_zero, take_length,
    kept]

/-- Both ends write the signature alike. -/
theorem Declaration.IsPlain.parseCFunction_eq
    {text : Text}
    (plain : decl.IsPlain)
    (derived : decl.IsDerived)
    (cut : splitBlanks (withoutPunctuation text) = tokenWords decl.tokens)
    (implementation : Option CImplementation) :
    ∃ signature taskSignature,
      callSignature decl.function = some signature ∧
      parseCFunction text implementation =
        .ok ⟨"NULL".toList, decl.name, taskSignature, signature⟩ ∧
      (implementation = none → taskSignature = signature) := by
  obtain ⟨types, passed, read, length, noReturn⟩ :=
    exists_types plain.arguments derived.types derived.noVoid
  have nonempty : types.map typeText ≠ [] := by
    intro isEmpty
    rw [map_eq_nil_iff] at isEmpty
    subst isEmpty
    exact plain.someArgument (length_eq_zero_iff.mp length.symm)
  have name := loadCImplementation_eq derived.name plain.noClass
  let task : CImplementation := ⟨"NULL".toList, decl.name⟩
  refine ⟨task.signature (types.map typeText),
    (implementation.getD task).signature (types.map typeText), ?_, ?_, ?_⟩
  · rw [callSignature, plain.parameters_eq, passed]
    change some (getSignature _ _ false (hasReturn types _) types) = _
    rw [hasReturn_eq_false noReturn, getSignature_eq noReturn]
    rfl
  · rw [parseCFunction, cut, plain.tokenWords_eq derived]
    simp only [name, read, signatureText_eq nonempty, bind, Except.bind]
    rfl
  · rintro rfl
    rfl

end Plain

end DistributedRdf.CBinding
