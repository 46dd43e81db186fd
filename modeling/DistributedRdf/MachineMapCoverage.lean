import DistributedRdf.LsCpuReport

namespace DistributedRdf.Nio

open LsCpuReport CpuGroup List BindToMap

open Words (Text decimal)

/-!
# What a machine map covers

Every node lists the ids of its processors, and the map has a group for each of
them.  A map that counts up to the number of the processors has one too many.
-/

/-!
## The slots of a binder
-/

def BindToMap.slots (binder : BindToMap) : Nat :=
  (binder.bindedCPUs.map length).sum

variable (sockets : List (List Int))

def totalLength : Nat :=
  (sockets.map length).sum

theorem length_intervalIds (interval : Int × Int) :
    (intervalIds interval).length =
      (interval.2 - interval.1 + 1).toNat := by
  simp [intervalIds]

theorem mapM_eq_none
    {Input Output : Type}
    {read : Input → Option Output}
    {input : Input}
    {inputs : List Input}
    (member : input ∈ inputs)
    (fails : read input = none) :
    inputs.mapM read = none := by
  induction member with
  | head rest =>
      rw [mapM_cons, fails]
      rfl
  | tail first _ hypothesis =>
      rw [mapM_cons, hypothesis]
      cases read first <;> rfl

variable {sockets}

/-- A row adds a slot to each socket, as long as slots are missing. -/
theorem replicateRow_spec
    {i missing : Nat}
    (longer : missing > 0 → ∀ ids ∈ sockets, i < ids.length) :
    ∃ more left, replicateRow i missing sockets = some (more, left) ∧
      totalLength more + left = totalLength sockets + missing ∧
      (sockets ≠ [] → missing > 0 → left < missing) ∧
      (left > 0 → ∀ ids ∈ more, i + 1 < ids.length) ∧
      (sockets ≠ [] → more ≠ []) := by
  induction sockets generalizing missing with
  | nil =>
      refine ⟨[], missing, ?_, rfl, by simp, by simp, by simp⟩
      cases missing with
      | zero => rfl
      | succ missing => rfl
  | cons ids rest hypothesis =>
      cases missing with
      | zero => exact ⟨ids :: rest, 0, rfl, rfl, by simp, by simp, by simp⟩
      | succ missing =>
          have allLonger := longer (Nat.succ_pos missing)
          obtain ⟨idsLonger, restLonger⟩ := forall_mem_cons.mp allLonger
          obtain ⟨more, left, row, sum, fewer, nextLonger, -⟩ :=
            @hypothesis missing fun _ => restLonger
          have atMost : left ≤ missing := by
            cases rest with
            | nil =>
                cases missing with
                | zero | succ _ =>
                    cases row
                    exact le_rfl
            | cons next others =>
                cases missing with
                | zero =>
                    cases row
                    exact le_rfl
                | succ missing =>
                    exact (fewer (cons_ne_nil _ _) (Nat.succ_pos _)).le
          refine ⟨(ids ++ [ids[i]]) :: more, left, ?_, ?_, ?_, ?_, ?_⟩
          · rw [replicateRow, getElem?_eq_getElem idsLonger, row]
            rfl
          · simp only [totalLength, map_cons, sum_cons,
              length_append, length_singleton] at sum ⊢
            omega
          · intro _ _
            omega
          · intro someLeft
            refine forall_mem_cons.mpr ⟨?_, nextLonger someLeft⟩
            rw [length_append, length_singleton]
            omega
          · intro _
            exact cons_ne_nil _ _

theorem replicateRows_spec
    {rows i missing : Nat}
    (someSocket : sockets ≠ [])
    (enough : missing ≤ rows)
    (longer : missing > 0 → ∀ ids ∈ sockets, i < ids.length) :
    ∃ idList, replicateRows rows i missing sockets = some idList ∧
      totalLength idList = totalLength sockets + missing ∧
      (missing = 0 → idList = sockets) := by
  induction rows generalizing i missing sockets with
  | zero =>
      obtain rfl := Nat.le_zero.mp enough
      exact ⟨sockets, rfl, rfl, fun _ => rfl⟩
  | succ rows hypothesis =>
      rw [replicateRows]
      by_cases someMissing : missing > 0
      · have firstLonger : i < (sockets.headD []).length := by
          cases sockets with
          | nil => contradiction
          | cons first rest => exact longer someMissing first mem_cons_self
        obtain ⟨more, left, row, sum, fewer, nextLonger, someMore⟩ :=
          replicateRow_spec longer
        have stillFewer := fewer someSocket someMissing
        obtain ⟨idList, rest, restSum, -⟩ :=
          hypothesis (someMore someSocket) (by omega : left ≤ rows)
            nextLonger
        rw [if_pos ⟨firstLonger, someMissing⟩, row]
        exact ⟨idList, rest, restSum.trans sum, fun none => by omega⟩
      · obtain rfl : missing = 0 := by omega
        rw [if_neg fun both => absurd both.2 (Nat.lt_irrefl 0)]
        exact ⟨sockets, rfl, rfl, fun _ => rfl⟩

section Construct

variable {groups : List CpuGroup}

def idsOf (groups : List CpuGroup) : List (List Int) :=
  groups.map ids

theorem length_ids_interval
    {interval : CpuInterval}
    (proper : interval.Proper) :
    (interval.ids.length : Int) =
      (interval.bounds.2 : Int) - interval.bounds.1 + 1 := by
  have inOrder := proper.1
  rw [CpuInterval.ids, length_intervalIds]
  dsimp only
  omega

theorem length_ids_pos
    {group : CpuGroup}
    (proper : group.Proper) :
    0 < group.ids.length := by
  cases group with
  | nil => exact absurd rfl proper.1
  | cons interval rest =>
      have isProper := proper.2 interval mem_cons_self
      have length := length_ids_interval isProper
      have inOrder := isProper.1
      rw [ids, map_cons, flatten_cons, length_append]
      omega

/-- Every interval of a proper map counts as many threads as it lists ids. -/
theorem realAmountThreads_eq
    (proper : ∀ group ∈ groups, CpuGroup.Proper group) :
    realAmountThreads (groups.map fun group => group.map fun interval =>
        ((interval.bounds.1 : Int), (interval.bounds.2 : Int))) =
      totalLength (idsOf groups) := by
  have lengths :
      ∀ intervals : List CpuInterval,
        (∀ interval ∈ intervals, interval.Proper) →
          (intervals.map fun interval =>
            (interval.bounds.2 : Int) - interval.bounds.1 + 1).sum =
            ((ids intervals).length : Int) := by
    intro intervals allProper
    induction intervals with
    | nil => rfl
    | cons interval rest hypothesis =>
        obtain ⟨isProper, restProper⟩ := forall_mem_cons.mp allProper
        rw [map_cons, sum_cons, hypothesis restProper,
          ← length_ids_interval isProper]
        simp [ids]
  induction groups with
  | nil => rfl
  | cons group rest hypothesis =>
      obtain ⟨isProper, restProper⟩ := forall_mem_cons.mp proper
      have amounts := hypothesis restProper
      rw [realAmountThreads] at amounts ⊢
      rw [map_cons, flatten_cons, map_append, sum_append,
        amounts, map_map]
      refine (congrArg (· + _) (lengths group isProper.2)).trans ?_
      simp [totalLength, idsOf]

/-- The slots of the binder are the greater of the threads and the ids. -/
theorem construct_mapText
    (numThreads : Int)
    (someGroup : groups ≠ [])
    (proper : ∀ group ∈ groups, CpuGroup.Proper group) :
    ∃ binder,
      construct numThreads (String.ofList (mapText groups)) = some binder ∧
      (binder.slots : Int) = max numThreads (totalLength (idsOf groups)) ∧
      (numThreads ≤ 0 → binder.idList = idsOf groups) := by
  let total := totalLength (idsOf groups)
  have someSocket : idsOf groups ≠ [] := by simpa [idsOf] using someGroup
  have longer :
      (numThreads - total).toNat > 0 → ∀ ids ∈ idsOf groups, 0 < ids.length := by
    intro _ ids member
    obtain ⟨group, isGroup, rfl⟩ := mem_map.mp member
    exact length_ids_pos (proper group isGroup)
  obtain ⟨idList, rows, sum, unchanged⟩ :=
    replicateRows_spec someSocket le_rfl longer
  have parsedIds :
      ((groups.map fun group => group.map fun interval =>
          ((interval.bounds.1 : Int), (interval.bounds.2 : Int))).map
        fun intervals => (intervals.map intervalIds).flatten) =
        idsOf groups := by
    rw [idsOf, map_map]
    refine map_congr_left fun group _ => ?_
    simp only [Function.comp_apply, map_map, ids]
    rfl
  refine ⟨⟨idList, idList.map fun ids => ids.map fun _ => -1⟩, ?_, ?_, ?_⟩
  · rw [construct, parseSockets_mapText someGroup proper]
    dsimp only [Option.bind_eq_bind, Option.bind_some]
    rw [parsedIds, realAmountThreads_eq proper, auxiliarConstructor,
      if_neg someSocket]
    dsimp only
    rw [rows]
    rfl
  · have slots :
        slots ⟨idList, idList.map fun ids => ids.map fun _ => -1⟩ =
          totalLength idList := by
      simp [slots, totalLength, Function.comp_def]
    rw [slots, sum]
    omega
  · intro noThreads
    exact unchanged (by omega)

end Construct

/-!
## The maps of the machine
-/

namespace LsCpuReport

variable (report : LsCpuReport)

/-- What holds of the reports of lines that are well formed -/
structure Sound : Prop where
  cores : ∀ count, report.coresPerSocket = some count → 0 < count
  threads : ∀ count, report.threadsPerCore = some count → 0 < count
  cpus : ∀ count, report.cpus = some count → count < 2 ^ 31
  nodes : ∀ group ∈ report.nodes, ∀ interval ∈ group, interval.Proper

theorem sound_add
    {report : LsCpuReport}
    {line : LsCpuLine}
    (sound : report.Sound)
    (wellFormed : line.WellFormed) :
    (report.add line).Sound := by
  obtain ⟨cores, threads, cpus, nodes⟩ := sound
  cases line with
  | sockets indent padding count => exact ⟨cores, threads, cpus, nodes⟩
  | coresPerSocket indent padding count =>
      refine ⟨?_, threads, cpus, nodes⟩
      rintro _ ⟨⟩
      exact wellFormed.1
  | threadsPerCore indent padding count =>
      refine ⟨cores, ?_, cpus, nodes⟩
      rintro _ ⟨⟩
      exact wellFormed.1
  | cpus indent padding count =>
      refine ⟨cores, threads, ?_, nodes⟩
      rintro _ ⟨⟩
      exact wellFormed.2
  | numaNode indent node padding group =>
      refine ⟨cores, threads, cpus, ?_⟩
      exact forall_mem_append.mpr
        ⟨nodes, forall_mem_singleton.mpr wellFormed⟩
  | other text => exact ⟨cores, threads, cpus, nodes⟩

theorem sound_ofLines
    {lines : List LsCpuLine}
    (wellFormed : ∀ line ∈ lines, line.WellFormed) :
    (ofLines lines).Sound := by
  have run :
      ∀ report : LsCpuReport, report.Sound → (lines.foldl add report).Sound := by
    induction lines with
    | nil => exact fun _ sound => sound
    | cons line rest hypothesis =>
        obtain ⟨lineFormed, restFormed⟩ := forall_mem_cons.mp wellFormed
        exact fun report sound =>
          hypothesis restFormed _ (sound_add sound lineFormed)
  exact run _ ⟨by simp, by simp, by simp, by simp⟩

/-- The number of the processors is reported, and nodes do not share them. -/
structure WellFormed : Prop where
  cpus : ∃ cpus, report.cpus = some cpus ∧
    totalLength (idsOf report.nodes) ≤ cpus
  nodes : (idsOf report.nodes).flatten.Nodup
  fits : ∀ sockets cores threads,
    report.sockets = some sockets → report.coresPerSocket = some cores →
      report.threadsPerCore = some threads →
        sockets * (cores * threads) < 2 ^ 31

/-- A positive number of sockets is reported and each node has processors; if
there are no nodes, the sockets make up all processors. -/
def Complete : Prop :=
  (∃ sockets, report.sockets = some sockets ∧ 0 < sockets ∧
    (report.nodes = [] → ∃ cores threads,
      report.coresPerSocket = some cores ∧
      report.threadsPerCore = some threads ∧
      report.cpus = some (sockets * (cores * threads)))) ∧
    ∀ group ∈ report.nodes, group ≠ []

end LsCpuReport

/-- The map of the output covers the machine that is reported. -/
def CoversMachine (cmdOutput : String) (report : LsCpuReport) : Prop :=
  ∃ map listed,
    processLsCpuOutput cmdOutput = some map ∧
    construct 0 map = some listed ∧
    (report.nodes ≠ [] →
      listed.idList = idsOf report.nodes ∧ listed.idList.flatten.Nodup) ∧
    (report.nodes = [] → report.cpus = some (totalLength listed.idList)) ∧
    ∀ numThreads : Int, ∃ binder,
      construct numThreads map = some binder ∧
      (binder.slots : Int) = max numThreads (totalLength listed.idList)

section Maps

variable
  {groups : List CpuGroup}
  {cmdOutput : String}
  {report : LsCpuReport}

/-- A proper map is parsed to its groups, whatever is asked for. -/
theorem coversMachine_mapText
    (isMap : processLsCpuOutput cmdOutput = some (String.ofList (mapText groups)))
    (someGroup : groups ≠ [])
    (proper : ∀ group ∈ groups, CpuGroup.Proper group) :
    CoversMachine cmdOutput report ↔
      (report.nodes ≠ [] →
        idsOf groups = idsOf report.nodes ∧ (idsOf groups).flatten.Nodup) ∧
      (report.nodes = [] → report.cpus = some (totalLength (idsOf groups))) := by
  obtain ⟨listed, parsed, -, ids⟩ := construct_mapText 0 someGroup proper
  have isList := ids le_rfl
  constructor
  · rintro ⟨map, other, isOther, parsedOther, nodes, noNodes, -⟩
    obtain rfl := Option.some.inj (isMap.symm.trans isOther)
    obtain rfl := Option.some.inj (parsed.symm.trans parsedOther)
    rw [← isList]
    exact ⟨nodes, noNodes⟩
  · rintro ⟨nodes, noNodes⟩
    refine ⟨_, listed, isMap, parsed, isList ▸ nodes, isList ▸ noNodes, ?_⟩
    intro numThreads
    obtain ⟨binder, isBinder, slots, -⟩ :=
      construct_mapText numThreads someGroup proper
    exact ⟨binder, isBinder, isList ▸ slots⟩

/-- A map with the key of a node for its ids is not parsed. -/
theorem construct_emptyNode
    {nodes : List CpuGroup}
    {numThreads : Int}
    (noIds : [] ∈ nodes) :
    construct numThreads (String.ofList
      (['/'].intercalate (nodes.map description))) = none := by
  have someNode : nodes ≠ [] := ne_nil_of_mem noIds
  have parts :
      split '/' (['/'].intercalate (nodes.map description)) =
        nodes.map description := by
    refine split_intercalate (by simpa using someNode) ?_
    intro part isPart
    obtain ⟨group, -, rfl⟩ := mem_map.mp isPart
    by_cases empty : group = []
    · rw [description, if_pos empty]
      exact ⟨by decide, by decide⟩
    · rw [description, if_neg empty]
      exact ⟨plain_text_group (by decide) (by decide) (by decide) group,
        text_group_ne_nil empty⟩
  have fails :
      (nodes.map description).mapM
        (fun availableCPUs => (split ',' availableCPUs).mapM parseInterval) =
        none :=
    mapM_eq_none (mem_map.mpr ⟨[], noIds, rfl⟩) (by decide)
  rw [construct, parseSockets, String.toList_ofList, parts, fails]
  rfl

/-- The map without sockets counts up to the number of the processors. -/
theorem generalMap_fields
    {cpus : Nat}
    (reported : report.cpus = some cpus) :
    generalMap report.fields = mapText [[.range 0 cpus]] := by
  have zero : Nat.toDigits 10 0 = ['0'] := by decide
  have text :
      mapText [[.range 0 cpus]] =
        Nat.toDigits 10 0 ++ '-' :: Nat.toDigits 10 cpus := by
    simp [mapText, text, CpuInterval.text]
  rw [text, zero, generalMap, fields, reported]
  rfl

def socketGroups (sockets cpusPerSocket : Nat) : List CpuGroup :=
  (range sockets).map fun i =>
    [.range (i * cpusPerSocket) ((i + 1) * cpusPerSocket - 1)]

theorem socketMap_eq
    {sockets cores threads : Nat}
    (positive : 0 < cores * threads) :
    socketMap sockets cores threads =
      mapText (socketGroups sockets (cores * threads)) := by
  have groupText :
      ∀ i : Nat,
        decimal ((i : Int) * ((cores : Int) * threads)) ++
            '-' :: decimal (((i : Int) + 1) * ((cores : Int) * threads) - 1) =
          text [.range (i * (cores * threads))
            ((i + 1) * (cores * threads) - 1)] := by
    intro i
    have low :
        (i : Int) * ((cores : Int) * threads) =
          Int.ofNat (i * (cores * threads)) := by
      simp
    have high :
        ((i : Int) + 1) * ((cores : Int) * threads) - 1 =
          Int.ofNat ((i + 1) * (cores * threads) - 1) := by
      have atLeast : 1 ≤ (i + 1) * (cores * threads) :=
        Nat.mul_pos (Nat.succ_pos i) positive
      rw [Int.ofNat_eq_natCast, Nat.cast_sub atLeast]
      push_cast
      rfl
    rw [low, high, text, map_singleton, intercalate_singleton]
    rfl
  rw [socketMap, mapText, socketGroups, map_map, Int.toNat_natCast]
  exact congrArg _ (map_congr_left fun i _ => groupText i)

theorem totalLength_socketGroups
    {sockets cpusPerSocket : Nat}
    (positive : 0 < cpusPerSocket) :
    totalLength (idsOf (socketGroups sockets cpusPerSocket)) =
      sockets * cpusPerSocket := by
  have length :
      ∀ i : Nat,
        (ids [.range (i * cpusPerSocket)
          ((i + 1) * cpusPerSocket - 1)]).length = cpusPerSocket := by
    intro i
    have next : (i + 1) * cpusPerSocket = i * cpusPerSocket + cpusPerSocket :=
      Nat.succ_mul i cpusPerSocket
    simp only [ids, map_singleton, flatten_singleton,
      CpuInterval.ids, CpuInterval.bounds, length_intervalIds, next]
    omega
  simp [totalLength, idsOf, socketGroups, Function.comp_def, length]

theorem proper_socketGroups
    {sockets cpusPerSocket : Nat}
    (positive : 0 < cpusPerSocket)
    (fits : sockets * cpusPerSocket < 2 ^ 31) :
    ∀ group ∈ socketGroups sockets cpusPerSocket, CpuGroup.Proper group := by
  intro group member
  obtain ⟨i, inRange, rfl⟩ := mem_map.mp member
  have next : (i + 1) * cpusPerSocket = i * cpusPerSocket + cpusPerSocket :=
    Nat.succ_mul i cpusPerSocket
  have atMost : (i + 1) * cpusPerSocket ≤ sockets * cpusPerSocket :=
    Nat.mul_le_mul_right _ (mem_range.mp inRange)
  refine ⟨cons_ne_nil _ _, forall_mem_singleton.mpr ⟨?_, ?_⟩⟩
  · change i * cpusPerSocket ≤ (i + 1) * cpusPerSocket - 1
    omega
  · change (i + 1) * cpusPerSocket - 1 < 2 ^ 31
    omega

end Maps

section Coverage

variable
  {cmdOutput : String}
  {report : LsCpuReport}

/-- Without sockets the map has one processor more than the machine. -/
theorem not_covers_generalMap
    (sound : report.Sound)
    (wellFormed : report.WellFormed)
    (noSocket : ¬ ∃ sockets, report.sockets = some sockets ∧ 0 < sockets)
    (isMap : processLsCpuOutput cmdOutput =
      (cpuMap report.fields).map String.ofList) :
    ¬ CoversMachine cmdOutput report := by
  have isGeneral : cpuMap report.fields = some (generalMap report.fields) := by
    cases isSockets : report.sockets with
    | none => simp [cpuMap, fields, isSockets]
    | some sockets =>
        have zero : sockets = 0 := Nat.eq_zero_of_not_pos fun positive =>
          noSocket ⟨sockets, isSockets, positive⟩
        simp [cpuMap, fields, isSockets, zero]
  obtain ⟨cpus, reported, atMost⟩ := wellFormed.cpus
  have fits := sound.cpus cpus reported
  rw [isGeneral, generalMap_fields reported] at isMap
  have proper :
      ∀ group ∈ [[CpuInterval.range 0 cpus]], CpuGroup.Proper group :=
    forall_mem_singleton.mpr
      ⟨cons_ne_nil _ _, forall_mem_singleton.mpr ⟨cpus.zero_le, fits⟩⟩
  have listed : totalLength (idsOf [[CpuInterval.range 0 cpus]]) = cpus + 1 := by
    simp only [totalLength, idsOf, ids, CpuInterval.ids,
      CpuInterval.bounds, map_singleton, flatten_singleton,
      length_intervalIds, sum_singleton]
    omega
  rw [coversMachine_mapText isMap (cons_ne_nil _ _) proper]
  rintro ⟨nodes, noNodes⟩
  by_cases someNode : report.nodes = []
  · have count := noNodes someNode
    rw [reported, listed, Option.some.injEq] at count
    omega
  · rw [← (nodes someNode).1, listed] at atMost
    omega

section Sockets

variable
  {sockets : Nat}
  (isSockets : report.sockets = some sockets)
  (someSocket : 0 < sockets)

include isSockets someSocket

variable (sound : report.Sound)

include sound

/-- The nodes are covered as long as each of them has processors. -/
theorem covers_nodes_iff
    (wellFormed : report.WellFormed)
    (someNode : report.nodes ≠ [])
    (isMap : processLsCpuOutput cmdOutput =
      (cpuMap report.fields).map String.ofList) :
    CoversMachine cmdOutput report ↔ ∀ group ∈ report.nodes, group ≠ [] := by
  have nodeMap :
      cpuMap report.fields =
        some (['/'].intercalate
          (report.nodes.map description)) := by
    simp [cpuMap, fields, isSockets, someSocket.ne', someNode]
  rw [nodeMap] at isMap
  constructor
  · rintro ⟨map, listed, isOther, parsed, -⟩ group member rfl
    obtain rfl := Option.some.inj (isMap.symm.trans isOther)
    rw [construct_emptyNode member] at parsed
    contradiction
  · intro nonempty
    have texts :
        report.nodes.map description =
          report.nodes.map text :=
      map_congr_left fun group member => if_neg (nonempty group member)
    rw [texts] at isMap
    refine (coversMachine_mapText isMap someNode ?_).mpr ⟨?_, ?_⟩
    · exact fun group member => ⟨nonempty group member, sound.nodes group member⟩
    · exact fun _ => ⟨rfl, wellFormed.nodes⟩
    · exact fun noNode => absurd noNode someNode

/-- Without nodes the processors of the sockets have to be all of them. -/
theorem covers_sockets_iff
    (wellFormed : report.WellFormed)
    (noNode : report.nodes = [])
    (isMap : processLsCpuOutput cmdOutput =
      (cpuMap report.fields).map String.ofList) :
    CoversMachine cmdOutput report ↔
      ∃ cores threads,
        report.coresPerSocket = some cores ∧
        report.threadsPerCore = some threads ∧
        report.cpus = some (sockets * (cores * threads)) := by
  have perSocket :
      cpuMap report.fields =
        report.coresPerSocket.bind fun cores =>
          report.threadsPerCore.map fun (threads : Nat) =>
            socketMap sockets cores threads := by
    cases isCores : report.coresPerSocket <;>
      cases isThreads : report.threadsPerCore <;>
        simp [cpuMap, fields, isSockets, someSocket.ne', noNode,
          isCores, isThreads]
  rw [perSocket] at isMap
  have someGroup :
      ∀ cpusPerSocket : Nat, socketGroups sockets cpusPerSocket ≠ [] := by
    intro cpusPerSocket
    simpa [socketGroups] using someSocket.ne'
  have known :
      ∀ {cores threads : Nat},
        report.coresPerSocket = some cores →
        report.threadsPerCore = some threads →
          (CoversMachine cmdOutput report ↔
            report.cpus = some (sockets * (cores * threads))) := by
    intro cores threads isCores isThreads
    have positive : 0 < cores * threads :=
      Nat.mul_pos (sound.cores _ isCores) (sound.threads _ isThreads)
    have fits := wellFormed.fits _ _ _ isSockets isCores isThreads
    rw [isCores, isThreads, Option.bind_some, Option.map_some,
      socketMap_eq positive] at isMap
    rw [coversMachine_mapText isMap (someGroup _)
      (proper_socketGroups positive fits), totalLength_socketGroups positive]
    exact ⟨fun covers => covers.2 noNode,
      fun all => ⟨fun someNode => absurd noNode someNode, fun _ => all⟩⟩
  constructor
  · intro covers
    obtain ⟨map, listed, isOther, -⟩ := id covers
    obtain ⟨_, isText, -⟩ := Option.map_eq_some_iff.mp (isMap.symm.trans isOther)
    obtain ⟨cores, isCores, isText⟩ := Option.bind_eq_some_iff.mp isText
    obtain ⟨threads, isThreads, -⟩ := Option.map_eq_some_iff.mp isText
    exact ⟨cores, threads, isCores, isThreads,
      (known isCores isThreads).mp covers⟩
  · rintro ⟨cores, threads, isCores, isThreads, all⟩
    exact (known isCores isThreads).mpr all

end Sockets

/-- The map covers the machine exactly if the sockets are reported and no node
is without processors. -/
theorem coversMachine_iff
    {lines : List LsCpuLine}
    (lineFormed : ∀ line ∈ lines, line.WellFormed)
    (wellFormed : (ofLines lines).WellFormed) :
    CoversMachine (outputText lines) (ofLines lines) ↔
      (ofLines lines).Complete := by
  have isMap := processLsCpuOutput_outputText lineFormed
  have sound := sound_ofLines lineFormed
  generalize ofLines lines = report at *
  by_cases someSocket : ∃ sockets, report.sockets = some sockets ∧ 0 < sockets
  case neg =>
    refine iff_of_false
      (not_covers_generalMap sound wellFormed someSocket isMap) ?_
    rintro ⟨⟨sockets, isSockets, positive, -⟩, -⟩
    exact someSocket ⟨sockets, isSockets, positive⟩
  case pos =>
    obtain ⟨sockets, isSockets, positive⟩ := someSocket
    by_cases noNode : report.nodes = []
    case neg =>
      rw [covers_nodes_iff isSockets positive sound wellFormed noNode isMap]
      constructor
      · exact fun nonempty =>
          ⟨⟨sockets, isSockets, positive, fun empty => absurd empty noNode⟩,
            nonempty⟩
      · exact And.right
    case pos =>
      rw [covers_sockets_iff isSockets positive sound wellFormed noNode isMap]
      constructor
      · exact fun known =>
          ⟨⟨sockets, isSockets, positive, fun _ => known⟩, by simp [noNode]⟩
      · rintro ⟨⟨_, isOther, -, known⟩, -⟩
        obtain rfl := Option.some.inj (isSockets.symm.trans isOther)
        exact known noNode

/-- A machine with four processors and two nodes -/
def twoNodes : List LsCpuLine :=
  [.other "Architecture:          x86_64".toList,
    .cpus 0 15 4,
    .other "On-line CPU(s) list:   0-3".toList,
    .threadsPerCore 0 3 1,
    .coresPerSocket 0 3 2,
    .sockets 0 12 2,
    .numaNode 0 0 5 [.single 0, .range 2 3],
    .numaNode 0 1 5 [.single 1]]

theorem coversMachine_twoNodes :
    CoversMachine (outputText twoNodes) (ofLines twoNodes) := by
  have lineFormed : ∀ line ∈ twoNodes, line.WellFormed := by decide
  have wellFormed : (ofLines twoNodes).WellFormed := by
    refine ⟨⟨4, rfl, by decide⟩, by decide, ?_⟩
    rintro _ _ _ ⟨⟩ ⟨⟩ ⟨⟩
    decide
  refine (coversMachine_iff lineFormed wellFormed).mpr ⟨⟨2, rfl, ?_, ?_⟩, ?_⟩
  · decide
  · exact fun noNode => absurd noNode (cons_ne_nil _ _)
  · decide

/-- A machine whose output has no line for the sockets -/
def noSockets : List LsCpuLine :=
  [.cpus 0 15 2]

theorem not_coversMachine_noSockets :
    (∀ line ∈ noSockets, line.WellFormed) ∧
      (ofLines noSockets).WellFormed ∧
      ¬ CoversMachine (outputText noSockets) (ofLines noSockets) := by
  have lineFormed : ∀ line ∈ noSockets, line.WellFormed := by decide
  have wellFormed : (ofLines noSockets).WellFormed := by
    refine ⟨⟨2, rfl, by decide⟩, by decide, ?_⟩
    rintro _ _ _ ⟨⟩
  refine ⟨lineFormed, wellFormed, ?_⟩
  refine not_covers_generalMap (sound_ofLines lineFormed) wellFormed
    ?_ (processLsCpuOutput_outputText lineFormed)
  rintro ⟨sockets, isSockets, -⟩
  cases isSockets

end Coverage

end DistributedRdf.Nio
