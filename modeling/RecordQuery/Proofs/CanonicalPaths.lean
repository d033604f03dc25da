import RecordQuery.Proofs.Conforming
import RecordQuery.Proofs.Names
import RecordQuery.Proofs.Paths

/-!
# Canonical paths

The names of a chain's steps with points between them are a path. A name is found by a segment of the same
lower case. Lower-casing keeps every point and makes no new one, and it leaves no text empty, so the names
are themselves segments, and the path is cut into just these:

    shape.find? segment = some p  →  lowercase p.name = lowercase segment          (lowercase_of_find?)
    '.' ∈ lowercase s  ↔  '.' ∈ s                                                  (point_mem_lowercase_iff)

Each name finds its own property again (`leads_of_resolve`), so this path leads along the same chain, and no
other chain has it:

    schema.resolve root aliases path = .ok chain  →
      schema.resolve root .empty chain.path = .ok chain                            (resolve_path)
-/

namespace RecordQuery

namespace Text

/-! ## Points in lower case -/

/-- No small letter lies below a bound that no run of capitals is shifted below. -/
theorem le_smallLetter {bound n : Nat} {runs : List CaseRun}
    (hruns : ∀ run ∈ runs, (bound : Int) ≤ run.first + run.shift) (hn : bound ≤ n) :
    bound ≤ smallLetter n runs := by
  induction runs with
  | nil => exact hn
  | cons run runs ih =>
    have hrun : (bound : Int) ≤ run.first + run.shift := hruns run List.mem_cons_self
    have hlater : bound ≤ smallLetter n runs := ih fun r hr => hruns r (List.mem_cons_of_mem run hr)
    rw [smallLetter]
    split
    · exact hn
    · split
      · split
        · omega
        · exact hlater
      · exact hlater

/-- The small forms of letters outside ASCII are letters. -/
theorem ofNat_smallLetter_ne_point {n : Nat} (h : 128 ≤ n) :
    Char.ofNat (smallLetter n caseRuns) ≠ '.' := by
  have hruns : ∀ run ∈ caseRuns, ((47 : Nat) : Int) ≤ run.first + run.shift := by decide +kernel
  have hle : 47 ≤ smallLetter n caseRuns := le_smallLetter hruns (by omega)
  intro heq
  by_cases hvalid : (smallLetter n caseRuns).isValidChar
  · rw [Char.ofNat, dif_pos hvalid] at heq
    have hcode : smallLetter n caseRuns = 46 := congrArg Char.toNat heq
    omega
  · rw [Char.ofNat, dif_neg hvalid] at heq
    exact absurd heq (by decide)

theorem point_mem_lowerChar_iff (before : List Char) (c : Char) (after : List Char) :
    '.' ∈ lowerChar before c after ↔ c = '.' := by
  unfold lowerChar
  split
  · rw [List.mem_singleton, eq_comm]
    exact toLower_eq_point_iff c
  · next hlarge =>
    have hc : c ≠ '.' := by
      rintro rfl
      exact hlarge (by decide)
    have hsmall : '.' ≠ Char.ofNat (smallLetter c.toNat caseRuns) :=
      (ofNat_smallLetter_ne_point (Nat.le_of_not_lt hlarge)).symm
    refine ⟨fun hmem => ?_, fun heq => absurd heq hc⟩
    split at hmem
    · split at hmem <;> exact absurd hmem (by decide)
    · split at hmem
      · exact absurd hmem (by decide)
      · exact absurd (List.mem_singleton.1 hmem) hsmall

theorem lowerChar_ne_nil (before : List Char) (c : Char) (after : List Char) :
    lowerChar before c after ≠ [] := by
  unfold lowerChar
  split
  · exact List.cons_ne_nil _ _
  · split
    · split <;> exact List.cons_ne_nil _ _
    · split <;> exact List.cons_ne_nil _ _

/-- A text and its lower case have points together. -/
theorem point_mem_lowercase_iff (s : String) : '.' ∈ (lowercase s).toList ↔ '.' ∈ s.toList := by
  have hfrom (before cs : List Char) : '.' ∈ lowercaseFrom before cs ↔ '.' ∈ cs := by
    induction cs generalizing before with
    | nil => rfl
    | cons c after ih =>
      rw [lowercaseFrom, List.mem_append, point_mem_lowerChar_iff, ih, List.mem_cons, eq_comm]
  unfold lowercase
  rw [String.toList_ofList]
  exact hfrom [] s.toList

theorem lowercase_eq_empty_iff (s : String) : lowercase s = "" ↔ s = "" := by
  unfold lowercase
  rw [← String.toList_eq_nil_iff, ← String.toList_eq_nil_iff, String.toList_ofList]
  cases s.toList with
  | nil => exact Iff.rfl
  | cons c after =>
    rw [lowercaseFrom, List.append_eq_nil_iff]
    exact ⟨fun h => absurd h.1 (lowerChar_ne_nil [] c after), fun h => absurd h (List.cons_ne_nil _ _)⟩

end Text

/-! ## Segments -/

/-- The text can be a segment of a path. -/
structure IsSegment (s : String) : Prop where
  nonempty : s ≠ ""
  plain : '.' ∉ s.toList

/-- What can be a segment depends on the lower case alone. -/
theorem IsSegment.of_lowercase {s t : String} (h : IsSegment s)
    (heq : Text.lowercase t = Text.lowercase s) : IsSegment t := by
  refine ⟨fun hempty => h.nonempty ?_, fun hpoint => h.plain ?_⟩
  · rwa [← Text.lowercase_eq_empty_iff, ← heq, Text.lowercase_eq_empty_iff]
  · rwa [← Text.point_mem_lowercase_iff, ← heq, Text.point_mem_lowercase_iff]

/-- A property is found by names of its lower case only. -/
theorem lowercase_of_find? {shape : Shape} {name : String} {p : Property}
    (h : shape.find? name = some p) : Text.lowercase p.name = Text.lowercase name := by
  rcases Option.or_eq_some_iff.1 h with h | ⟨_, h⟩
  · have hp := List.find?_some h
    exact Text.lowercase_eq_of_eqIgnoringAsciiCase hp
  · have hp := List.find?_some h
    exact of_decide_eq_true hp

theorem plain_of_mem_segments {aliases : Aliases} {path segment : String}
    (h : segment ∈ Schema.segments aliases path) : '.' ∉ segment.toList := by
  unfold Schema.segments at h
  split at h
  · cases h
  · next first rest hsplit =>
    rcases List.mem_append.1 h with h | h
    · exact Text.notMem_of_mem_split h
    · exact Text.notMem_of_mem_split (hsplit ▸ List.mem_cons_of_mem first h)

theorem segments_empty (path : String) : Schema.segments .empty path = Text.split '.' path := by
  unfold Schema.segments
  cases hsplit : Text.split '.' path with
  | nil => rfl
  | cons first rest =>
    have hplain : '.' ∉ first.toList := Text.notMem_of_mem_split (hsplit ▸ List.mem_cons_self)
    show Text.split '.' first ++ rest = first :: rest
    rw [Text.split_of_notMem hplain, List.singleton_append]

/-! ## Names of chains -/

/-- The names of the steps have the lower case of the segments. -/
theorem lowercase_names {schema : Schema} {shape : Shape} {segment : String} {rest : List String}
    {chain : Chain} (h : schema.walk shape segment rest = .ok chain) :
    chain.names.map Text.lowercase = (segment :: rest).map Text.lowercase := by
  induction rest generalizing shape segment chain with
  | nil =>
    unfold Schema.walk at h
    split at h
    · cases h
    · next p hp =>
      cases h
      exact congrArg (fun s => [s]) (lowercase_of_find? hp)
  | cons next rest ih =>
    unfold Schema.walk at h
    split at h
    · cases h
    · next p hp =>
      split at h
      · split at h
        · cases h
        · obtain ⟨tail, htail, rfl⟩ := map_eq_ok_iff.1 h
          rw [names_cons, List.map_cons, ih htail, List.map_cons]
          exact congrArg (fun s => s :: _) (lowercase_of_find? hp)
      · cases h

/-- A chain of properties that their names find again is the walk along these names. -/
theorem walk_names {schema : Schema} {shape : Shape} {chain : Chain} (h : schema.Leads shape chain) :
    ∃ first rest, chain.names = first :: rest ∧ schema.walk shape first rest = .ok chain := by
  induction h with
  | @last shape p hfind =>
    refine ⟨p.name, [], rfl, ?_⟩
    rw [Schema.walk, hfind]
  | @cons shape inner p target tail hfind htype hinner _ ih =>
    obtain ⟨next, rest, hnames, hwalk⟩ := ih
    refine ⟨p.name, next :: rest, ?_, ?_⟩
    · rw [names_cons, hnames]
      rfl
    · rw [Schema.walk, hfind]
      dsimp only
      rw [htype]
      dsimp only
      rw [hinner]
      dsimp only
      rw [hwalk]
      rfl

/-- The names of a resolved chain can be segments. -/
theorem isSegment_of_mem_names {schema : Schema} {root : Shape} {aliases : Aliases} {path : String}
    {chain : Chain} (h : schema.resolve root aliases path = .ok chain) :
    ∀ name ∈ chain.names, IsSegment name := by
  unfold Schema.resolve at h
  split at h
  · cases h
  · next first rest hsegments =>
    split at h
    · cases h
    · next hfull =>
      intro name hname
      have hlower : Text.lowercase name ∈ (first :: rest).map Text.lowercase := by
        rw [← lowercase_names h]
        exact List.mem_map_of_mem hname
      obtain ⟨segment, hsegment, heq⟩ := List.mem_map.1 hlower
      have hplain : '.' ∉ segment.toList := plain_of_mem_segments (hsegments ▸ hsegment)
      have hnonempty : segment ≠ "" := by
        rintro rfl
        exact hfull hsegment
      exact IsSegment.of_lowercase ⟨hnonempty, hplain⟩ heq.symm

/-- The path of a chain whose names can be segments is cut into the names. -/
theorem split_path {chain : Chain} (h : ∀ name ∈ chain.names, IsSegment name) :
    Text.split '.' chain.path = chain.names :=
  Text.split_eq_iff.2 ⟨names_ne_nil chain, rfl, fun name hname => (h name hname).plain⟩

/-- A chain that its names lead along is what its path resolves to without aliases. -/
theorem resolve_of_leads {schema : Schema} {root : Shape} {chain : Chain} (h : schema.Leads root chain)
    (hsegment : ∀ name ∈ chain.names, IsSegment name) :
    schema.resolve root .empty chain.path = .ok chain := by
  obtain ⟨first, rest, hnames, hwalk⟩ := walk_names h
  have hfull : "" ∉ first :: rest := fun hmem => (hsegment "" (hnames ▸ hmem)).nonempty rfl
  unfold Schema.resolve
  rw [segments_empty, split_path hsegment, hnames]
  dsimp only
  rw [if_neg hfull]
  exact hwalk

/-! ## Top theorem (proved from the lemmas above) -/

/-- Canonical paths are stable. The path of a chain that some path resolves to, read without aliases from the
same root, resolves to this chain. Paths that resolve to chains of one canonical path, with whatever aliases,
resolve to one chain. -/
theorem resolve_path {schema : Schema} {root : Shape} {aliases : Aliases} {path : String} {chain : Chain}
    (h : schema.resolve root aliases path = .ok chain) :
    schema.resolve root .empty chain.path = .ok chain ∧
      ∀ aliases' path' chain', schema.resolve root aliases' path' = .ok chain' →
        chain'.path = chain.path → chain' = chain := by
  have hstable := resolve_of_leads (leads_of_resolve h) (isSegment_of_mem_names h)
  refine ⟨hstable, fun aliases' path' chain' h' hpath => ?_⟩
  have hstable' := resolve_of_leads (leads_of_resolve h') (isSegment_of_mem_names h')
  rw [hpath, hstable] at hstable'
  exact (Except.ok.inj hstable').symm

/-- A label that stands for a path is gone from the canonical path, and of the names with one lower case the
first one stands there, whatever the query has written. -/
theorem resolve_path_boss :
    let person : Shape := ⟨"Person", [⟨"Boss", .record "Person", false⟩, ⟨"ÉTÉ", .int32, true⟩,
      ⟨"été", .date, false⟩], []⟩
    let resolve := Schema.resolve ⟨[person], none⟩ person
    let chain : Chain := ⟨[⟨"Boss", .record "Person", true⟩, ⟨"Boss", .record "Person", true⟩],
      ⟨"ÉTÉ", .int32, true⟩⟩
    resolve (.ofList [("Chef", "BOSS.boss")]) "chef.Été" = .ok chain ∧
      resolve .empty "Boss.Boss.ÉTÉ" = .ok chain ∧ resolve .empty "boss.boss.éTÉ" = .ok chain := by
  intro person resolve chain
  have hchef : resolve (.ofList [("Chef", "BOSS.boss")]) "chef.Été" = .ok chain := by
    apply toOption_eq_some_iff.1
    decide +kernel
  -- another spelling, of which no more is looked at than its canonical path
  have hother : (resolve .empty "boss.boss.éTÉ").map Chain.path = .ok chain.path := by
    apply toOption_eq_some_iff.1
    decide +kernel
  obtain ⟨hstable, hunique⟩ := resolve_path hchef
  obtain ⟨chain', hchain', hpath⟩ := map_eq_ok_iff.1 hother
  rw [hunique .empty "boss.boss.éTÉ" chain' hchain' hpath] at hchain'
  exact ⟨hchef, hstable, hchain'⟩

end RecordQuery
