import Mathlib.Data.List.Sort

namespace DistributedRdf.Java

open List

/-!
# Priority queues

The head of a `PriorityQueue` is a least element with respect to its comparator.
How the other elements are arranged, and which of several least elements comes
first, is left to the implementation.
-/

variable
  (Element : Type u)
  (compare : Element → Element → Int)

structure PriorityQueue where
  elements : List Element
  headLeast :
    ∀ head ∈ elements.head?, ∀ element ∈ elements, compare head element ≤ 0

/-- How an implementation arranges its elements after a change. -/
structure PriorityQueue.Implementation where
  arranged : List Element → PriorityQueue Element compare
  arranged_perm : ∀ elements, (arranged elements).elements.Perm elements

namespace PriorityQueue

variable
  {Element : Type u}
  {compare : Element → Element → Int}

def peek (queue : PriorityQueue Element compare) : Option Element :=
  queue.elements.head?

def poll
    (queue : PriorityQueue Element compare)
    (implementation : Implementation Element compare) :
    PriorityQueue Element compare :=
  implementation.arranged queue.elements.tail

def add
    (queue : PriorityQueue Element compare)
    (implementation : Implementation Element compare)
    (element : Element) :
    PriorityQueue Element compare :=
  implementation.arranged (queue.elements ++ [element])

def empty : PriorityQueue Element compare where
  elements := []
  headLeast := nofun

/-- A queue whose head stays in front -/
def withHead
    (implementation : Implementation Element compare)
    (head : Element)
    (rest : List Element)
    (least : ∀ element ∈ head :: rest, compare head element ≤ 0) :
    PriorityQueue Element compare where
  elements := head :: (implementation.arranged rest).elements
  headLeast := by
    intro first isFirst element isElement
    cases isFirst
    have rearranged := (implementation.arranged_perm rest).cons head
    exact least element (rearranged.mem_iff.mp isElement)

/-- As `add`, where the head stays in front unless the new element is less. -/
def offer
    (queue : PriorityQueue Element compare)
    (implementation : Implementation Element compare)
    (element : Element) :
    PriorityQueue Element compare :=
  match queue with
  | ⟨[], _⟩ => implementation.arranged [element]
  | ⟨head :: rest, headLeast⟩ =>
      if stays : compare head element ≤ 0 then
        withHead implementation head (element :: rest) (by
          have least := headLeast head rfl
          intro other isOther
          simp only [mem_cons] at isOther least
          rcases isOther with isHead | isNew | isOld
          · exact least other (.inl isHead)
          · exact isNew ▸ stays
          · exact least other (.inr isOld))
      else
        implementation.arranged (element :: head :: rest)

/-- The element is taken out once; the head stays unless it is the element. -/
def remove
    [DecidableEq Element]
    (queue : PriorityQueue Element compare)
    (implementation : Implementation Element compare)
    (element : Element) :
    PriorityQueue Element compare :=
  match queue with
  | ⟨[], _⟩ => empty
  | ⟨head :: rest, headLeast⟩ =>
      if head = element then
        implementation.arranged rest
      else
        withHead implementation head (rest.erase element) fun other isOther =>
          headLeast head rfl other
            (cons_subset_cons head erase_subset isOther)

/-- A new queue to which the elements are added one by one -/
def ofList
    (implementation : Implementation Element compare)
    (elements : List Element) :
    PriorityQueue Element compare :=
  elements.foldl (fun queue element => queue.add implementation element) empty

/-- The elements in the order in which they are polled -/
def drain (implementation : Implementation Element compare) :
    Nat → PriorityQueue Element compare → List Element
  | 0, _ => []
  | rounds + 1, queue =>
      match queue.peek with
      | none => []
      | some head => head :: drain implementation rounds (queue.poll implementation)

/-- Elements are polled until one of them is served, in a bounded loop. -/
def pollUntil
    (implementation : Implementation Element compare)
    (serve : Element → Option Answer) :
    Nat → PriorityQueue Element compare → Option (Element × Answer)
  | 0, _ => none
  | rounds + 1, queue =>
      match queue.peek with
      | none => none
      | some head =>
          match serve head with
          | some answer => some (head, answer)
          | none =>
              pollUntil implementation serve rounds (queue.poll implementation)

variable
  {queue : PriorityQueue Element compare}
  {head : Element}

theorem mem_of_peek
    (isHead : queue.peek = some head) :
    head ∈ queue.elements :=
  mem_of_mem_head? isHead

theorem peek_least
    {head element : Element}
    (isHead : queue.peek = some head)
    (isElement : element ∈ queue.elements) :
    compare head element ≤ 0 :=
  queue.headLeast head isHead element isElement

/-- `poll` removes the head and nothing else. -/
theorem cons_poll_perm
    {implementation : Implementation Element compare}
    (isHead : queue.peek = some head) :
    (head :: (queue.poll implementation).elements).Perm queue.elements := by
  have split : queue.elements = head :: queue.elements.tail :=
    eq_cons_of_mem_head? isHead
  calc
    (head :: (queue.poll implementation).elements).Perm
        (head :: queue.elements.tail) :=
      (implementation.arranged_perm _).cons head
    List.Perm _ queue.elements := by
      rw [← split]

variable {element : Element}

theorem mem_of_mem_poll
    {implementation : Implementation Element compare}
    (remains : element ∈ (queue.poll implementation).elements) :
    element ∈ queue.elements :=
  mem_of_mem_tail ((implementation.arranged_perm _).mem_iff.mp remains)

theorem foldl_add_perm
    (implementation : Implementation Element compare)
    (elements : List Element)
    (queue : PriorityQueue Element compare) :
    (elements.foldl (fun queue element => queue.add implementation element)
        queue).elements.Perm
      (queue.elements ++ elements) := by
  induction elements generalizing queue with
  | nil =>
      rw [append_nil]
      exact List.Perm.refl _
  | cons element rest hypothesis =>
      calc
        List.Perm _ ((queue.add implementation element).elements ++ rest) :=
          hypothesis _
        List.Perm _ (queue.elements ++ [element] ++ rest) :=
          (implementation.arranged_perm _).append_right rest
        List.Perm _ (queue.elements ++ element :: rest) := by
          rw [append_assoc]
          exact List.Perm.refl _

theorem ofList_perm
    (implementation : Implementation Element compare)
    (elements : List Element) :
    (ofList implementation elements).elements.Perm elements :=
  foldl_add_perm implementation elements empty

variable (queue)

theorem offer_perm
    (implementation : Implementation Element compare)
    (element : Element) :
    (queue.offer implementation element).elements.Perm
      (element :: queue.elements) := by
  fun_cases offer queue implementation element with
  | case1 headLeast => exact implementation.arranged_perm [element]
  | case2 head rest headLeast stays =>
      calc
        List.Perm _ (head :: element :: rest) :=
          (implementation.arranged_perm _).cons head
        List.Perm _ (element :: head :: rest) :=
          List.Perm.swap element head rest
  | case3 head rest headLeast less =>
      exact implementation.arranged_perm (element :: head :: rest)

variable {queue}

/-- An element that is offered once more stays in front. -/
theorem peek_offer_of_peek
    (implementation : Implementation Element compare)
    (isHead : queue.peek = some element) :
    (queue.offer implementation element).peek = some element := by
  have equal : compare element element ≤ 0 :=
    peek_least isHead (mem_of_peek isHead)
  fun_cases offer queue implementation element with
  | case1 headLeast => simp [peek] at isHead
  | case2 head rest headLeast stays => exact isHead
  | case3 head rest headLeast less =>
      cases isHead
      exact absurd equal less

variable (queue)

theorem remove_perm
    [DecidableEq Element]
    (implementation : Implementation Element compare)
    (element : Element) :
    (queue.remove implementation element).elements.Perm
      (queue.elements.erase element) := by
  fun_cases remove queue implementation element with
  | case1 headLeast => exact List.Perm.refl _
  | case2 rest headLeast =>
      rw [erase_cons_head]
      exact implementation.arranged_perm rest
  | case3 head rest headLeast isOther =>
      rw [erase_cons_tail (by simpa using isOther)]
      exact (implementation.arranged_perm _).cons head

variable {queue}

theorem peek_remove_of_ne
    [DecidableEq Element]
    (implementation : Implementation Element compare)
    (isOther : queue.peek ≠ some element) :
    (queue.remove implementation element).peek = queue.peek := by
  fun_cases remove queue implementation element with
  | case1 headLeast => rfl
  | case2 rest headLeast => exact absurd rfl isOther
  | case3 head rest headLeast differs => rfl

/-- What remains of a queue whose head is polled -/
theorem mem_poll_of_ne
    {implementation : Implementation Element compare}
    {head element : Element}
    (isHead : queue.peek = some head)
    (isElement : element ∈ queue.elements)
    (isOther : element ≠ head) :
    element ∈ (queue.poll implementation).elements := by
  have polled := @cons_poll_perm _ _ queue head implementation isHead
  exact mem_of_ne_of_mem isOther (polled.mem_iff.mpr isElement)

theorem length_poll
    (implementation : Implementation Element compare)
    (isHead : queue.peek = some head) :
    (queue.poll implementation).elements.length + 1 =
      queue.elements.length :=
  (@cons_poll_perm _ _ queue head implementation isHead).length_eq

theorem elements_eq_nil_of_peek
    (noHead : queue.peek = none) :
    queue.elements = [] :=
  head?_eq_none_iff.mp noHead

theorem drain_perm
    {implementation : Implementation Element compare}
    {rounds : Nat}
    (enough : queue.elements.length ≤ rounds) :
    (drain implementation rounds queue).Perm queue.elements := by
  induction rounds generalizing queue with
  | zero =>
      rw [length_eq_zero_iff.mp (Nat.le_zero.mp enough)]
      exact List.Perm.refl _
  | succ rounds hypothesis =>
      rw [drain]
      split
      case h_1 noHead => rw [elements_eq_nil_of_peek noHead]
      case h_2 head isHead =>
        have shorter := length_poll implementation isHead
        have polled :=
          @hypothesis (queue.poll implementation) (by omega)
        exact (polled.cons head).trans (cons_poll_perm isHead)

/-!
## The next element that is ready
-/

/-- A least element among those that are ready, if there is one -/
def IsNext
    (compare : Element → Element → Int)
    (isReady : Element → Bool)
    (elements : List Element) : Option Element → Prop
  | none => ∀ element ∈ elements, isReady element = false
  | some next =>
      next ∈ elements ∧ isReady next = true ∧
        ∀ element ∈ elements, isReady element = true →
          compare next element ≤ 0

section IsNext

variable
  {isReady : Element → Bool}
  {elements others : List Element}
  {answer : Option Element}

theorem IsNext.perm
    (isNext : IsNext compare isReady elements answer)
    (sameElements : elements.Perm others) :
    IsNext compare isReady others answer := by
  cases answer with
  | none =>
      intro element isElement
      exact isNext element (sameElements.mem_iff.mpr isElement)
  | some next =>
      obtain ⟨isElement, ready, least⟩ := isNext
      refine ⟨sameElements.mem_iff.mp isElement, ready, ?_⟩
      intro element isOther
      exact least element (sameElements.mem_iff.mpr isOther)

/-- An element that is not ready makes no difference. -/
theorem IsNext.cons
    (isNext : IsNext compare isReady elements answer)
    (notReady : isReady element = false) :
    IsNext compare isReady (element :: elements) answer := by
  cases answer with
  | none => exact forall_mem_cons.mpr ⟨notReady, isNext⟩
  | some next =>
      obtain ⟨isElement, ready, least⟩ := isNext
      refine ⟨mem_cons_of_mem element isElement, ready, ?_⟩
      refine forall_mem_cons.mpr ⟨?_, least⟩
      intro isReady
      rw [notReady] at isReady
      contradiction

theorem isNext_peek
    (ready : ∀ first ∈ queue.peek, isReady first = true) :
    IsNext compare isReady queue.elements queue.peek := by
  cases isHead : queue.peek with
  | none =>
      rw [elements_eq_nil_of_peek isHead]
      exact forall_mem_nil _
  | some first =>
      exact ⟨mem_of_peek isHead, ready first isHead,
        fun element isElement _ => peek_least isHead isElement⟩

theorem IsNext.ready
    {next : Element}
    (isNext : IsNext compare isReady elements (some next)) :
    isReady next = true :=
  isNext.2.1

end IsNext

section PollUntil

variable
  {implementation : Implementation Element compare}
  {serve : Element → Option Answer}
  {rounds : Nat}
  {queue : PriorityQueue Element compare}

/-- The element that is served is least among those that could be served. -/
theorem pollUntil_eq_some
    {answer : Answer}
    (served :
      pollUntil implementation serve rounds queue = some (element, answer)) :
    element ∈ queue.elements ∧ serve element = some answer ∧
      ∀ other ∈ queue.elements,
        (serve other).isSome → compare element other ≤ 0 := by
  induction rounds generalizing queue with
  | zero => exact nomatch served
  | succ rounds hypothesis =>
      rw [pollUntil] at served
      split at served
      case h_1 noHead => exact nomatch served
      case h_2 head isHead =>
        split at served
        case h_1 headAnswer headServed =>
          cases served
          exact ⟨mem_of_peek isHead, headServed,
            fun other isOther _ => peek_least isHead isOther⟩
        case h_2 headUnserved =>
          obtain ⟨isElement, isServed, least⟩ := hypothesis served
          refine ⟨mem_of_mem_poll isElement, isServed, ?_⟩
          intro other isOther otherServed
          by_cases isPolled : other = head
          · rw [isPolled, headUnserved] at otherServed
            exact nomatch otherServed
          · exact least other (mem_poll_of_ne isHead isOther isPolled) otherServed

/-- With enough rounds nothing that could be served is passed over. -/
theorem pollUntil_eq_none
    (enough : queue.elements.length ≤ rounds)
    (unserved : pollUntil implementation serve rounds queue = none) :
    ∀ element ∈ queue.elements, serve element = none := by
  induction rounds generalizing queue with
  | zero =>
      rw [length_eq_zero_iff.mp (Nat.le_zero.mp enough)]
      exact nofun
  | succ rounds hypothesis =>
      rw [pollUntil] at unserved
      split at unserved
      case h_1 noHead =>
        rw [elements_eq_nil_of_peek noHead]
        exact nofun
      case h_2 head isHead =>
        split at unserved
        case h_1 headAnswer headServed => exact nomatch unserved
        case h_2 headUnserved =>
          intro element isElement
          by_cases isPolled : element = head
          · rw [isPolled]
            exact headUnserved
          · have shorter := length_poll implementation isHead
            exact hypothesis (by omega) unserved element
              (mem_poll_of_ne isHead isElement isPolled)

end PollUntil

section Sorted

variable
  (total : ∀ first second,
    compare first second ≤ 0 ∨ compare second first ≤ 0)
  (transitive : ∀ first second third,
    compare first second ≤ 0 → compare second third ≤ 0 →
      compare first third ≤ 0)

/-- An implementation that keeps its elements sorted. -/
def sorted : Implementation Element compare where
  arranged elements := {
    elements := elements.insertionSort fun first second =>
      compare first second ≤ 0
    headLeast := by
      intro head isHead element isElement
      have : Std.Total fun first second => compare first second ≤ 0 := ⟨total⟩
      have : IsTrans Element fun first second => compare first second ≤ 0 :=
        ⟨transitive⟩
      have reflexive : compare head head ≤ 0 :=
        (total head head).elim id id
      have sorted :=
        pairwise_insertionSort
          (fun first second => compare first second ≤ 0) elements
      rw [eq_cons_of_mem_head? isHead] at sorted isElement
      rcases mem_cons.mp isElement with same | later
      · rw [same]
        exact reflexive
      · exact rel_of_pairwise_cons sorted later
  }
  arranged_perm elements := perm_insertionSort _ elements

variable (favourite : Element)

/-- The favourite comes before the elements that are no less. -/
def Prefers
    (queue : PriorityQueue Element compare) :
    Prop :=
  favourite ∈ queue.elements →
    (∀ element ∈ queue.elements, compare favourite element ≤ 0) →
      queue.peek = some favourite

/-- An implementation that breaks the ties of one element in its favour. -/
def preferring
    [DecidableEq Element] :
    Implementation Element compare where
  arranged elements :=
    if isLeast : favourite ∈ elements ∧
        ∀ element ∈ elements, compare favourite element ≤ 0 then {
      elements := favourite :: elements.erase favourite
      headLeast := by
        intro head isHead element isElement
        cases isHead
        have sameElements := perm_cons_erase isLeast.1
        exact isLeast.2 element (sameElements.mem_iff.mpr isElement)
    }
    else
      (sorted total transitive).arranged elements
  arranged_perm elements := by
    split
    case isTrue isLeast => exact (perm_cons_erase isLeast.1).symm
    case isFalse notLeast => exact (sorted total transitive).arranged_perm elements

variable (elements : List Element)

theorem preferring_prefers
    [DecidableEq Element] :
    Prefers favourite
      ((preferring total transitive favourite).arranged elements) := by
  intro isElement isLeast
  have arranged :=
    (preferring total transitive favourite).arranged_perm elements
  have leastBefore :
      favourite ∈ elements ∧
        ∀ element ∈ elements, compare favourite element ≤ 0 :=
    ⟨arranged.mem_iff.mp isElement,
      fun element before => isLeast element (arranged.mem_iff.mpr before)⟩
  unfold peek preferring
  dsimp only
  rw [dif_pos leastBefore]
  rfl

theorem ofList_prefers
    [DecidableEq Element] :
    Prefers favourite
      (ofList (preferring total transitive favourite) elements) := by
  rcases eq_nil_or_concat elements with isEmpty | ⟨earlier, last, isConcat⟩
  · rw [isEmpty]
    exact nofun
  · rw [isConcat, ofList, concat_eq_append, foldl_concat]
    exact preferring_prefers total transitive favourite _

include transitive in
variable {favourite}

/-- A least element among those that can be served is served when it is preferred. -/
theorem pollUntil_preferring
    [DecidableEq Element]
    {serve : Element → Option Answer}
    {answer : Answer}
    (isServed : serve favourite = some answer)
    {rounds : Nat}
    {queue : PriorityQueue Element compare}
    (enough : queue.elements.length ≤ rounds)
    (isElement : favourite ∈ queue.elements)
    (prefers : Prefers favourite queue)
    (least :
      ∀ element ∈ queue.elements,
        (serve element).isSome → compare favourite element ≤ 0) :
    pollUntil (preferring total transitive favourite) serve rounds queue =
      some (favourite, answer) := by
  induction rounds generalizing queue with
  | zero =>
      rw [length_eq_zero_iff.mp (Nat.le_zero.mp enough)] at isElement
      exact nomatch isElement
  | succ rounds hypothesis =>
      rw [pollUntil]
      split
      case h_1 noHead =>
        rw [elements_eq_nil_of_peek noHead] at isElement
        exact nomatch isElement
      case h_2 head isHead =>
        by_cases isFavourite : favourite = head
        · rw [← isFavourite, isServed]
        · have headUnserved : serve head = none := by
            by_contra headServed
            have before :=
              least head (mem_of_peek isHead)
                (Option.isSome_iff_ne_none.mpr headServed)
            have favouriteFirst := prefers isElement fun element isOther =>
              transitive favourite head element before
                (peek_least isHead isOther)
            rw [isHead] at favouriteFirst
            exact isFavourite (Option.some.inj favouriteFirst).symm
          rw [headUnserved]
          have shorter :=
            length_poll (preferring total transitive favourite) isHead
          exact hypothesis (by omega)
            (mem_poll_of_ne isHead isElement isFavourite)
            (preferring_prefers total transitive favourite _)
            fun element remains => least element (mem_of_mem_poll remains)

end Sorted

end PriorityQueue

end DistributedRdf.Java
