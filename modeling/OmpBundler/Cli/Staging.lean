import OmpBundler.Cli.Operations

/-!
The staging phase.

Staging adds two things to the tree: stage files, which are hidden, and the
directories that are missing on the way to them. The directories are followed
in a list, which is empty exactly as long as every write has found its
directory. A stage file becomes known to the list of artifacts right after it
has been written, so only a failing `writeFile` can leave one behind.
-/

namespace OmpBundler.Cli

open Library Library.Proc Library.Path

section Directories

variable {α : Type} {root p d r : FilePath} {t u : Tree α}

/-! ### Making missing directories -/

/-- The paths from below `d` down to `d ++ r`. -/
def chain (d : FilePath) : FilePath → List FilePath
  | [] => []
  | name :: r => (d ++ [name]) :: chain (d ++ [name]) r

theorem chain_append_singleton (name : Name) :
    chain d (r ++ [name]) = chain d r ++ [d ++ r ++ [name]] := by
  induction r generalizing d with
  | nil => simp [chain]
  | cons first r ih =>
      show (d ++ [first]) :: chain (d ++ [first]) (r ++ [name]) = _
      rw [ih, chain]
      simp

theorem mem_chain {q : FilePath} :
    q ∈ chain d r ↔ ∃ more, more ≠ [] ∧ more <+: r ∧ q = d ++ more := by
  induction r generalizing d with
  | nil => simp [chain]
  | cons name r ih =>
      rw [chain, List.mem_cons, ih]
      constructor
      · rintro (rfl | ⟨more, -, before, rfl⟩)
        · exact ⟨[name], by simp, by simp, rfl⟩
        · exact ⟨name :: more, by simp, by simpa using before, by simp⟩
      · rintro ⟨more, proper, before, rfl⟩
        cases more with
        | nil => exact absurd rfl proper
        | cons first more =>
            obtain ⟨rfl, later⟩ := List.cons_prefix_cons.mp before
            by_cases last : more = []
            · exact .inl (by simp [last])
            · exact .inr ⟨more, last, later, by simp⟩

theorem take_chain (n : ℕ) : (chain d r).take n = chain d (r.take n) := by
  induction n generalizing d r with
  | zero => rfl
  | succ n ih =>
      cases r with
      | nil => rfl
      | cons name r =>
          rw [chain, List.take_succ_cons, ih]
          rfl

/-- The part of a path that is missing. -/
structure Missing (t : Tree α) (d r : FilePath) : Prop where
  present : t.get d ≠ none
  missing : ∀ more, more ≠ [] → more <+: r → t.get (d ++ more) = none

theorem exists_missing (rooted : t.get [] ≠ none) (p : FilePath) :
    ∃ d r, p = d ++ r ∧ Missing t d r := by
  induction p using List.reverseRecOn with
  | nil =>
      refine ⟨[], [], rfl, rooted, fun more proper before => ?_⟩
      exact absurd (List.prefix_nil.mp before) proper
  | append_singleton p name ih =>
      by_cases present : t.get (p ++ [name]) = none
      · obtain ⟨d, r, rfl, split⟩ := ih
        refine ⟨d, r ++ [name], by simp, split.present, fun more proper before => ?_⟩
        rcases List.prefix_concat_iff.mp before with rfl | inside
        · rw [← List.append_assoc]
          exact present
        · exact split.missing more proper inside
      · refine ⟨p ++ [name], [], by simp, present, fun more proper before => ?_⟩
        exact absurd (List.prefix_nil.mp before) proper

theorem reverse_inits_concat (p : FilePath) (name : Name) :
    (p ++ [name]).inits.reverse = (p ++ [name]) :: p.inits.reverse := by
  rw [List.inits_append]
  simp

theorem missingAbove_eq (split : Missing t d r) :
    missingAbove t (d ++ r) = (chain d r).reverse := by
  induction r using List.reverseRecOn with
  | nil =>
      rw [List.append_nil, missingAbove, reverse_inits,
        List.takeWhile_cons_of_neg (by simpa using split.present)]
      rfl
  | append_singleton r name ih =>
      have gone : t.get (d ++ (r ++ [name])) = none :=
        split.missing (r ++ [name]) (by simp) (List.prefix_refl _)
      have inits : (d ++ (r ++ [name])).inits.reverse =
          (d ++ (r ++ [name])) :: (d ++ r).inits.reverse := by
        rw [← List.append_assoc]
        exact reverse_inits_concat (d ++ r) name
      rw [missingAbove, inits, List.takeWhile_cons_of_pos (by simp [gone]), chain_append_singleton,
        List.reverse_append, List.reverse_singleton, List.singleton_append, List.append_assoc]
      refine congrArg _ (ih ⟨split.present, fun more proper before => ?_⟩)
      exact split.missing more proper (before.trans (List.prefix_append r [name]))

theorem find_present (split : Missing t d r) :
    ((d ++ r).inits.reverse.find? fun q => (t.get q).isSome) = some d := by
  induction r using List.reverseRecOn with
  | nil =>
      rw [List.append_nil, reverse_inits, List.find?_cons_of_pos]
      simpa [Option.isSome_iff_ne_none] using split.present
  | append_singleton r name ih =>
      have gone : t.get (d ++ (r ++ [name])) = none :=
        split.missing (r ++ [name]) (by simp) (List.prefix_refl _)
      rw [← List.append_assoc] at gone ⊢
      rw [reverse_inits_concat, List.find?_cons_of_neg (by rw [gone]; simp)]
      refine ih ⟨split.present, fun more proper before => ?_⟩
      exact split.missing more proper (before.trans (List.prefix_append r [name]))

/-- Where the missing part begins, there is a directory. -/
theorem missingDirectories_some {missing : List FilePath}
    (safe : assertNoSymlinkComponents root (d ++ r) t = true) (split : Missing t d r)
    (found : missingDirectories root t (d ++ r) = some missing) :
    t.get d = some .directory ∧ ∀ q ∈ missing, q ∈ chain d r := by
  have inside : root <+: d ++ r := inside_of_safe safe
  rw [missingDirectories, find_present split, missingAbove_eq split] at found
  dsimp only at found
  split at found
  · rename_i place
    obtain rfl := Option.some.inj found
    refine ⟨?_, fun q mem => by simpa using (List.mem_filter.mp mem).1⟩
    rcases place with short | directory
    · have proper : d ≠ d ++ r := by
        intro same
        have long := inside.length_le
        rw [← same] at long
        omega
      have here := (safe_iff.mp safe).2 d (List.prefix_append d r)
      have present := split.present
      cases node : t.get d with
      | none => exact absurd node present
      | some n =>
          cases n with
          | directory => rfl
          | file content mode => exact absurd node (here.2 proper content mode)
          | symlink target => exact absurd node (here.1 target)
    · exact directory
  · contradiction

/-- The missing directories can be made from the top down. -/
theorem makeDirectories_chain (present : t.get d = some .directory)
    (missing : ∀ more, more ≠ [] → more <+: r → t.get (d ++ more) = none) :
    ∃ u, makeDirectories t (chain d r) = some u ∧
      ∀ q, u.get q = if q ∈ chain d r then some .directory else t.get q := by
  induction r generalizing d t with
  | nil => exact ⟨t, rfl, fun q => by simp [chain]⟩
  | cons name r ih =>
      have free : t.get (d ++ [name]) = none := missing [name] (by simp) (by simp)
      have above : t.get (dirname (d ++ [name])) = some .directory := by
        rw [dirname, List.dropLast_concat]
        exact present
      obtain ⟨v, created⟩ := FileTree.create_of_free (n := .directory) above free
      have after := FileTree.get_create created
      have below (more : FilePath) (proper : more ≠ []) : d ++ [name] ++ more ≠ d ++ [name] :=
        fun same => proper (by simpa using same)
      obtain ⟨u, made, get⟩ := ih (t := v) (d := d ++ [name]) (by rw [after, if_pos rfl])
        fun more proper before => by
          rw [after, if_neg (below more proper), List.append_assoc]
          exact missing (name :: more) (by simp) (by simpa using before)
      refine ⟨u, ?_, fun q => ?_⟩
      · show (do
          let tree ← t.create (d ++ [name]) .directory
          makeDirectories tree (chain (d ++ [name]) r)) = some u
        rw [created]
        exact made
      · rw [get, after, chain]
        by_cases inside : q ∈ chain (d ++ [name]) r
        · simp [inside]
        · by_cases here : q = d ++ [name]
          · simp [here]
          · simp [inside, here]

end Directories

section Staging

variable {α : Type} {root : FilePath} {fault : Option Fault} {site : Site} {call : Call}
  {tree u : Tree α} {made missing : List FilePath} {s x : Transaction α} {path d r r' q : FilePath}

/-- A state of the staging phase, which began with `tree` and has made the
directories in `made`. -/
structure Staged (tree : Tree α) (made : List FilePath) (s : Transaction α) : Prop where
  visible : ∀ q, ¬ IsStage q → s.tree.get q = if q ∈ made then some .directory else tree.get q
  new : ∀ q ∈ made, tree.get q = none ∧ PlainPath q
  recorded : ∀ q ∈ s.createdDirectories, tree.get q = none ∧ PlainPath q
  stages : ∀ artifact ∈ s.artifacts, IsStage artifact.path
  idle : s.undoStack = []

theorem Staged.absent (staged : Staged tree made s) (plain : PlainPath q)
    (free : s.tree.get q = none) : tree.get q = none := by
  have seen := staged.visible q plain.not_isStage
  rw [free] at seen
  split at seen
  · contradiction
  · exact seen.symm

/-- Only stage files have come or changed. -/
theorem Staged.hidden (staged : Staged tree made s) (same : SameVisible x.tree s.tree)
    (created : x.createdDirectories = s.createdDirectories)
    (stages : ∀ artifact ∈ x.artifacts, artifact ∈ s.artifacts ∨ IsStage artifact.path)
    (idle : x.undoStack = s.undoStack) : Staged tree made x where
  visible q notStage := by rw [same q notStage, staged.visible q notStage]
  new := staged.new
  recorded := by
    rw [created]
    exact staged.recorded
  stages artifact mem := (stages artifact mem).elim (staged.stages artifact) fun stage => stage
  idle := by rw [idle, staged.idle]

/-- Missing directories have been made, and maybe more are recorded. -/
theorem Staged.make (staged : Staged tree made s) (split : Missing s.tree d r)
    (plain : PlainPath (d ++ r)) (before : r' <+: r)
    (get : ∀ q, x.tree.get q = if q ∈ chain d r' then some .directory else s.tree.get q)
    (created : x.createdDirectories = s.createdDirectories ++ missing)
    (inChain : ∀ q ∈ missing, q ∈ chain d r) (artifacts : x.artifacts = s.artifacts)
    (idle : x.undoStack = s.undoStack) : Staged tree (made ++ chain d r') x := by
  have absent (q : FilePath) (mem : q ∈ chain d r) : tree.get q = none ∧ PlainPath q := by
    obtain ⟨more, proper, inside, rfl⟩ := mem_chain.mp mem
    have plainQ : PlainPath (d ++ more) :=
      plain.of_below ((List.prefix_append_right_inj d).mpr inside)
    exact ⟨staged.absent plainQ (split.missing more proper inside), plainQ⟩
  have longer (q : FilePath) (mem : q ∈ chain d r') : q ∈ chain d r := by
    obtain ⟨more, proper, inside, same⟩ := mem_chain.mp mem
    exact mem_chain.mpr ⟨more, proper, inside.trans before, same⟩
  refine ⟨fun q notStage => ?_, fun q mem => ?_, fun q mem => ?_, ?_, by rw [idle, staged.idle]⟩
  · rw [get, staged.visible q notStage]
    by_cases now : q ∈ chain d r'
    · simp [now]
    · simp [now]
  · exact (List.mem_append.mp mem).elim (staged.new q) fun now => absent q (longer q now)
  · rw [created] at mem
    exact (List.mem_append.mp mem).elim (staged.recorded q) fun now => absent q (inChain q now)
  · rw [artifacts]
    exact staged.stages

/-- The next operation can be staged as well after directories were made. -/
theorem Forward.make (forward : Forward root 0 s) (plain : PlainPath (d ++ r)) (before : r' <+: r)
    (get : ∀ q, x.tree.get q = if q ∈ chain d r' then some .directory else s.tree.get q)
    (artifacts : x.artifacts = s.artifacts) (stagedWrites : x.stagedWrites = s.stagedWrites)
    (uuid : x.uuid = s.uuid) : Forward root 0 x := by
  have plainQ (q : FilePath) (mem : q ∈ chain d r') : PlainPath q := by
    obtain ⟨more, proper, inside, rfl⟩ := mem_chain.mp mem
    exact plain.of_below ((List.prefix_append_right_inj d).mpr (inside.trans before))
  refine ⟨fun q stage present => ?_, ?_, fun q present => ?_, ?_, ?_, ?_⟩
  · have same : x.tree.get q = s.tree.get q := by
      rw [get, if_neg fun mem => (plainQ q mem).not_isStage stage]
    rw [isFile_congr same, artifacts]
    exact forward.accounted q stage (same ▸ present)
  · rw [artifacts]
    intro artifact mem
    rw [get]
    split
    · simp
    · exact forward.tracked artifact mem
  · rw [get] at present
    rw [uuid]
    split at present
    · exact fun _ _ mem => (plainQ q ‹_› _ mem).elim
    · exact forward.drawn q present
  · rw [artifacts]
    exact forward.alone
  · rw [artifacts, stagedWrites]
    exact forward.staged
  · rw [stagedWrites]
    exact forward.distinct

theorem residue_point {point : Point} (residue : residueAt fault point ≠ 0) :
    fault.map Fault.point = some point := by
  cases fault with
  | none => exact absurd rfl residue
  | some fault =>
      by_cases same : fault.point = point
      · rw [Option.map_some, same]
      · exact absurd (if_neg same) residue

/-- The call that is made to fail. -/
theorem treeCall_fails {operation : Transaction α → Option (Tree α)}
    {post : Unit → Transaction α → Prop} {E : Failure → Transaction α → Prop}
    {D : Transaction α → Prop} (chosen : fault.map Fault.point = some ⟨site, call⟩)
    (bad : ∀ message, E (.failed ⟨site, call⟩ message) s) :
    Triple (fun x => x = s) (treeCall fault site call operation) post E D := by
  apply Triple.bind (M := fun _ _ => False)
  · rw [reach, if_pos chosen]
    exact fail_at _ (bad _)
  · exact fun _ => Triple.of_pre fun _ impossible => impossible.elim

theorem chain_eq_nil : chain d r = [] ↔ r = [] := by
  cases r <;> simp [chain]

/-- No directory has been made if there was none to make. -/
theorem made_iff (staged : Staged tree made s) (plain : PlainPath (d ++ r))
    (split : Missing s.tree d r) (present : s.tree.get d = some .directory)
    (nothing : r' = [] ↔ r = []) :
    made ++ chain d r' = [] ↔ made = [] ∧ tree.get (d ++ r) = some .directory := by
  rw [List.append_eq_nil_iff, chain_eq_nil, nothing]
  refine and_congr_right fun noneMade => ?_
  subst noneMade
  have seen := staged.visible (d ++ r) plain.not_isStage
  rw [if_neg List.not_mem_nil] at seen
  rw [← seen]
  constructor
  · rintro rfl
    rw [List.append_nil, present]
  · intro directory
    by_contra more
    rw [split.missing r more (List.prefix_refl r)] at directory
    contradiction

/-- Ensuring a directory during staging. -/
theorem ensureDirectory_staging {E : Failure → Transaction α → Prop}
    (staged : Staged tree made s) (forward : Forward root 0 s)
    (rooted : tree.get [] = some .directory) (plain : PlainPath path)
    (bad : ∀ call message made' x, Staged tree made' x → Accounted root x → call ≠ .writeFile →
      (made' = [] ↔ made = [] ∧
        (pastMkdir fault ⟨site, call⟩ → tree.get path = some .directory)) →
      E (.failed ⟨site, call⟩ message) x) :
    Triple (fun x => x = s) (ensureDirectory root fault site path)
      (fun _ x => ∃ made', Staged tree made' x ∧ Forward root 0 x ∧
        x.stagedWrites = s.stagedWrites ∧ x.tree.get path = some .directory ∧
        (made' = [] ↔ made = [] ∧ tree.get path = some .directory))
      E fun _ => False := by
  have early (call : Call) (notWrite : call ≠ .writeFile)
      (before : ¬ pastMkdir fault ⟨site, call⟩) (message : String) :
      E (.failed ⟨site, call⟩ message) s :=
    bad call message made s staged forward.accounted notWrite (by simp [before])
  refine bind_at (checkSafe_spec (early _ (by simp) id)) fun _ safe => ?_
  refine bind_at (reach_spec (early _ (by simp) id)) fun _ _ => get_at ?_
  have rootedNow : s.tree.get [] ≠ none := by
    rw [staged.visible [] (by simp [IsStage]), rooted]
    simp
  obtain ⟨d, r, rfl, split⟩ := exists_missing rootedNow path
  cases found : missingDirectories root s.tree (d ++ r) with
  | none => exact fail_at _ (early _ (by simp) id _)
  | some missing =>
      obtain ⟨present, inChain⟩ := missingDirectories_some safe split found
      obtain ⟨u, made₁, get₁⟩ := makeDirectories_chain present split.missing
      have recorded : Staged tree (made ++ chain d []) (s.addCreated missing) :=
        staged.make split plain (List.nil_prefix) (by simp [chain]) rfl inChain rfl rfl
      have after : Staged tree (made ++ chain d r) ((s.addCreated missing).setTree u) :=
        staged.make split plain (List.prefix_refl r) get₁ rfl inChain rfl rfl
      have forward₁ : Forward root 0 ((s.addCreated missing).setTree u) :=
        forward.make plain (List.prefix_refl r) get₁ rfl rfl rfl
      have iff₁ := made_iff staged plain split present (Iff.refl (r = []))
      refine modify_at ?_
      apply bind_at (t := (s.addCreated missing).setTree u) (Q := fun _ => True)
      · refine get_at ?_
        dsimp only
        rw [show missingAbove (s.addCreated missing).tree (d ++ r) = (chain d r).reverse from
          missingAbove_eq split, List.reverse_reverse]
        by_cases whole : residueAt fault ⟨site, .mkdir⟩ = 0
        · rw [if_pos whole]
          refine bind_at (Q := fun _ => True) (Triple.pure () fun _ same => ⟨same, trivial⟩)
            fun _ _ => ?_
          have unmade (message : String) :
              E (.failed ⟨site, .mkdir⟩ message) (s.addCreated missing) := by
            refine bad .mkdir message _ _ recorded
              (forward.accounted.congr rfl rfl) (by simp) ?_
            simp [chain, pastMkdir, whole]
          refine (treeCall_spec unmade).adapt (fun _ same => same) ?_
          rintro _ _ ⟨u', made', rfl⟩
          obtain rfl := Option.some.inj (made₁.symm.trans made')
          exact ⟨rfl, trivial⟩
        · -- The call fails half-way.
          rw [if_neg whole]
          have before : r.take (residueAt fault ⟨site, .mkdir⟩) <+: r := List.take_prefix _ r
          obtain ⟨u', made', get'⟩ := makeDirectories_chain present
            fun more proper inside => split.missing more proper (inside.trans before)
          rw [← take_chain] at made'
          rw [show (s.addCreated missing).tree = s.tree from rfl, made', Option.getD_some]
          refine modify_at (treeCall_fails (residue_point whole) fun message => ?_)
          have half : Forward root 0 ((s.addCreated missing).setTree u') :=
            forward.make plain before get' rfl rfl rfl
          refine bad .mkdir message _ _
            (staged.make split plain before get' rfl inChain rfl rfl) half.accounted (by simp) ?_
          rw [made_iff staged plain split present (by simp [whole])]
          simp [pastMkdir, whole]
      · intro _ _
        refine bind_at (checkSafe_spec fun message => ?_) fun _ _ => ?_
        · refine bad .ensureRecheck message _ _ after forward₁.accounted (by simp) ?_
          rw [iff₁]
          simp [pastMkdir]
        · refine Triple.pure _ ?_
          rintro _ rfl
          refine ⟨_, after, forward₁, rfl, ?_, iff₁⟩
          show u.get (d ++ r) = some .directory
          rw [get₁]
          split
          · rfl
          · rename_i outside
            by_cases none : r = []
            · rw [none, List.append_nil, present]
            · exact absurd (mem_chain.mpr ⟨r, none, List.prefix_refl r, rfl⟩) outside

/-! ### Stage files -/

/-- A stage file has been written and is an artifact now. -/
theorem Forward.addStage {content : α} {mode : ℕ} (forward : Forward root 0 s)
    (plain : PlainPath path) (inside : root <+: siblingPath path .stage s.uuid)
    (created : s.tree.create (siblingPath path .stage s.uuid) (.file content mode) = some u) :
    Forward root 0 ((s.nextUuid.setTree u).addArtifact
      ⟨siblingPath path .stage s.uuid, .stage, true, true⟩) := by
  have after := FileTree.get_create created
  have free : s.tree.get (siblingPath path .stage s.uuid) = none := fresh_sibling forward
  have old (i : ℕ) (artifact : TransactionArtifact) (here : s.artifacts[i]? = some artifact) :
      ((s.nextUuid.setTree u).addArtifact
        ⟨siblingPath path .stage s.uuid, .stage, true, true⟩).artifacts[i]? = some artifact := by
    have short := (List.getElem?_eq_some_iff.mp here).1
    rw [Transaction.addArtifact_artifacts]
    exact (List.getElem?_append_left short).trans here
  have cases (i : ℕ) (artifact : TransactionArtifact)
      (here : ((s.nextUuid.setTree u).addArtifact
        ⟨siblingPath path .stage s.uuid, .stage, true, true⟩).artifacts[i]? = some artifact) :
      s.artifacts[i]? = some artifact ∧ artifact.path ≠ siblingPath path .stage s.uuid ∨
        i = s.artifacts.length ∧ artifact.path = siblingPath path .stage s.uuid := by
    rw [Transaction.addArtifact_artifacts] at here
    by_cases short : i < s.artifacts.length
    · have here := (List.getElem?_append_left short).symm.trans here
      refine .inl ⟨here, fun same => ?_⟩
      exact forward.tracked artifact (List.mem_of_getElem? here) (same ▸ free)
    · have place : i = s.artifacts.length := by
        have bound := (List.getElem?_eq_some_iff.mp here).1
        rw [List.length_append, List.length_singleton] at bound
        change i < s.artifacts.length + 1 at bound
        omega
      subst place
      have last := (List.getElem?_concat_length (l := s.artifacts)).symm.trans here
      obtain rfl := Option.some.inj last
      exact .inr ⟨rfl, rfl⟩
  refine ⟨fun q stage present => ?_, fun artifact mem => ?_, fun q present => ?_, ?_, ?_,
    forward.distinct⟩
  · have present : u.get q ≠ none := present
    by_cases same : q = siblingPath path .stage s.uuid
    · subst same
      refine ⟨isFile_iff.mpr ⟨content, mode, ?_⟩, inside, mem_exposed.mpr ?_⟩
      · show u.get _ = _
        rw [after, if_pos rfl]
      · refine ⟨s.artifacts.length, ⟨siblingPath path .stage s.uuid, .stage, true, true⟩, ?_,
          rfl, rfl⟩
        exact List.getElem?_concat_length
    · have there : u.get q = s.tree.get q := by rw [after, if_neg same]
      obtain ⟨file, insideQ, listed⟩ := forward.accounted q stage (there ▸ present)
      obtain ⟨i, artifact, here, cleaned, path⟩ := mem_exposed.mp listed
      refine ⟨?_, insideQ, mem_exposed.mpr ⟨i, artifact, old i artifact here, cleaned, path⟩⟩
      show u.isFile q = true
      rw [isFile_congr there, file]
  · obtain ⟨i, here⟩ := List.mem_iff_getElem?.mp mem
    show u.get artifact.path ≠ none
    rw [after]
    rcases cases i artifact here with ⟨before, apart⟩ | ⟨-, same⟩
    · rw [if_neg apart]
      exact forward.tracked artifact (List.mem_of_getElem? before)
    · rw [if_pos same]
      simp
  · have present : u.get q ≠ none := present
    rw [after] at present
    split at present
    · subst q
      exact drawn_sibling plain
    · exact fun label uuid mem => (forward.drawn q present label uuid mem).trans
        (Nat.lt_succ_self s.uuid)
  · intro i j a b here there stage same
    rcases cases i a here with ⟨beforeA, apartA⟩ | ⟨rfl, sameA⟩
    · rcases cases j b there with ⟨beforeB, -⟩ | ⟨-, sameB⟩
      · exact forward.alone i j a b beforeA beforeB stage same
      · exact absurd (same.trans sameB) apartA
    · rcases cases j b there with ⟨-, apartB⟩ | ⟨rfl, -⟩
      · exact absurd (same.symm.trans sameA) apartB
      · rfl
  · intro i id later found
    obtain ⟨artifact, here, both⟩ := forward.staged i id later found
    exact ⟨artifact, old id artifact here, both⟩

/-- The last artifact is the stage file of the operation at `index`. -/
theorem Forward.addStaged {index : ℕ} {artifact : TransactionArtifact}
    {b : List TransactionArtifact} (forward : Forward root 0 s)
    (artifacts : s.artifacts = b ++ [artifact]) (stage : IsStage artifact.path)
    (cleaned : artifact.cleanupOnFailure = true)
    (known : ∀ i id, s.stagedWrites.get i = some id → i < index ∧ id < b.length) :
    Forward root 0 (s.addStaged index) := by
  have position : s.artifacts.length - 1 = b.length := by
    rw [artifacts, List.length_append, List.length_singleton]
    omega
  refine ⟨forward.accounted, forward.tracked, forward.drawn, forward.alone, ?_, ?_⟩
  · intro i id later found
    rw [Transaction.addStaged_stagedWrites, OrderedMap.get_set, position] at found
    split at found
    · obtain rfl := Option.some.inj found
      refine ⟨artifact, ?_, stage, cleaned⟩
      rw [Transaction.addStaged_artifacts, artifacts]
      exact List.getElem?_concat_length
    · exact forward.staged i id later found
  · intro i j id foundI foundJ
    rw [Transaction.addStaged_stagedWrites, OrderedMap.get_set, position] at foundI foundJ
    split at foundI
    · split at foundJ
      · omega
      · obtain rfl := Option.some.inj foundI
        have := (known j _ foundJ).2
        omega
    · split at foundJ
      · obtain rfl := Option.some.inj foundJ
        have := (known i _ foundI).2
        omega
      · exact forward.distinct i j id foundI foundJ

/-! ### One write -/

/-- Before the operation at `index` is staged. -/
structure StagingAt (root : FilePath) (tree : Tree α) (made : List FilePath) (index : ℕ)
    (s : Transaction α) : Prop where
  staged : Staged tree made s
  forward : Forward root 0 s
  known : ∀ i id, s.stagedWrites.get i = some id → i < index

/-- A call has failed while the write to `path` was staged. Every stage file
is known to the artifacts, unless `writeFile` has left one behind. -/
def StagingFailed (root : FilePath) (fault : Option Fault) (tree : Tree α) (made : List FilePath)
    (index : ℕ) (path : FilePath) (failure : Failure) (x : Transaction α) : Prop :=
  ∃ call message made', failure = .failed ⟨.staging index, call⟩ message ∧ Staged tree made' x ∧
    (made' = [] ↔ made = [] ∧ (pastMkdir fault ⟨.staging index, call⟩ →
      tree.get (dirname path) = some .directory)) ∧
    (Accounted root x ↔
      ¬ (call = .writeFile ∧ residueAt fault ⟨.staging index, call⟩ ≠ 0))

section Write

variable {index : ℕ} {content : α} {overwrite : Bool} {mode : Option ℕ}

/-- The part of `stageWrite` after the directory has been ensured. -/
theorem stageFile_spec {made' : List FilePath} (now : StagingAt root tree made' index s)
    (plain : PlainPath path) (present : s.tree.get (dirname path) = some .directory)
    (unmade : made' = [] ↔ made = [] ∧ tree.get (dirname path) = some .directory)
    (existing : Option (Node α)) :
    Triple (fun x => x = s) (do
      checkSafe root fault (.staging index) .safeAgain path
      let stagePath ← uniqueSiblingPath root fault (.staging index) path .stage 8
      checkSafe root fault (.staging index) .siblingSafe stagePath
      writeFileCall fault (.staging index) stagePath content mode
      modify (·.addArtifact ⟨stagePath, .stage, true, true⟩)
      (match existing with
      | some node =>
          treeCall fault (.staging index) .chmod fun s => s.tree.chmod stagePath (modeOf node)
      | none => pure ())
      modify (·.addStaged index) : Step α Unit)
      (fun _ x => ∃ made', StagingAt root tree made' (index + 1) x ∧
        (made' = [] ↔ made = [] ∧ tree.get (dirname path) = some .directory))
      (StagingFailed root fault tree made index path) fun _ => False := by
  have forward := now.forward
  -- A failing call other than `writeFile` leaves the artifacts in order.
  have bad (call : Call) (past : pastMkdir fault ⟨.staging index, call⟩)
      (notWrite : call ≠ .writeFile) (x : Transaction α)
      (state : Staged tree made' x ∧ Accounted root x) (message : String) :
      StagingFailed root fault tree made index path
        (.failed ⟨.staging index, call⟩ message) x := by
    refine ⟨call, message, made', rfl, state.1, ?_, by simp [state.2, notWrite]⟩
    rw [unmade]
    simp [past]
  have unchanged (x : Transaction α) (same : x = s ∨ x = s.nextUuid) :
      Staged tree made' x ∧ Accounted root x := by
    rcases same with rfl | rfl
    · exact ⟨now.staged, forward.accounted⟩
    · exact ⟨now.staged.hidden (fun _ _ => rfl) rfl (fun _ => .inl) rfl,
        forward.accounted.congr rfl rfl⟩
  refine bind_at (checkSafe_spec (bad _ (by trivial) (by simp) _ (unchanged _ (.inl rfl))))
    fun _ _ => ?_
  have fresh : s.tree.get (siblingPath path .stage s.uuid) = none := fresh_sibling forward
  refine bind_at (uniqueSiblingPath_spec fresh
    (bad _ (by trivial) (by simp) _ (unchanged _ (.inr rfl)))) fun stagePath drawn => ?_
  subst drawn
  refine bind_at (checkSafe_spec (bad _ (by trivial) (by simp) _ (unchanged _ (.inr rfl))))
    fun _ safe => ?_
  have inside : root <+: siblingPath path .stage s.uuid := inside_of_safe safe
  have isStage : IsStage (siblingPath path .stage s.uuid) := isStage_sibling_iff.mpr rfl
  have above : s.tree.get (dirname (siblingPath path .stage s.uuid)) = some .directory := by
    rw [dirname_sibling]
    exact present
  obtain ⟨u, created⟩ := FileTree.create_of_free (n := .file content (mode.getD defaultMode))
    above fresh
  have after := FileTree.get_create created
  have visible : SameVisible u s.tree := by
    intro q notStage
    rw [after, if_neg]
    rintro rfl
    exact notStage isStage
  have stagedWith (x : Transaction α) (tree' : SameVisible x.tree s.tree)
      (artifacts : ∀ artifact ∈ x.artifacts, artifact ∈ s.artifacts ∨ IsStage artifact.path)
      (rest : x.createdDirectories = s.createdDirectories ∧ x.undoStack = s.undoStack) :
      Staged tree made' x :=
    now.staged.hidden tree' rest.1 artifacts rest.2
  apply bind_at (t := s.nextUuid.setTree u) (Q := fun _ => True)
  · refine get_at ?_
    dsimp only
    rw [show s.nextUuid.tree = s.tree from rfl, created, Option.getD_some]
    by_cases whole : residueAt fault ⟨.staging index, .writeFile⟩ = 0
    · rw [if_pos whole]
      refine bind_at (Q := fun _ => True) (Triple.pure () fun _ same => ⟨same, trivial⟩)
        fun _ _ => ?_
      have failed (message : String) : StagingFailed root fault tree made index path
          (.failed ⟨.staging index, .writeFile⟩ message) s.nextUuid := by
        obtain ⟨state, accounted⟩ := unchanged _ (.inr rfl)
        refine ⟨.writeFile, message, made', rfl, state, ?_, by simp [accounted, whole]⟩
        rw [unmade]
        simp [pastMkdir]
      refine (treeCall_spec failed).adapt (fun _ same => same) ?_
      rintro _ _ ⟨u', same, rfl⟩
      obtain rfl := Option.some.inj same
      exact ⟨rfl, trivial⟩
    · -- The file has been created, and no artifact has its path.
      rw [if_neg whole]
      refine modify_at (treeCall_fails (residue_point whole) fun message => ?_)
      refine ⟨.writeFile, message, made', rfl,
        stagedWith _ visible (fun _ => .inl) ⟨rfl, rfl⟩, ?_, ?_⟩
      · rw [unmade]
        simp [pastMkdir]
      · refine iff_of_false (fun accounted => ?_) (by simp [whole])
        have there : u.get (siblingPath path .stage s.uuid) ≠ none := by
          rw [after, if_pos rfl]
          simp
        obtain ⟨-, -, listed⟩ := accounted _ isStage there
        obtain ⟨i, artifact, here, -, same⟩ := mem_exposed.mp listed
        exact forward.tracked artifact (List.mem_of_getElem? here) (same ▸ fresh)
  · intro _ _
    refine modify_at ?_
    have forward₁ := forward.addStage plain inside created
    have staged₁ : ∀ artifact ∈ ((s.nextUuid.setTree u).addArtifact
        ⟨siblingPath path .stage s.uuid, .stage, true, true⟩).artifacts,
        artifact ∈ s.artifacts ∨ IsStage artifact.path := by
      intro artifact mem
      rcases List.mem_append.mp mem with old | last
      · exact .inl old
      · rw [List.mem_singleton] at last
        rw [last]
        exact .inr isStage
    have known (i id : ℕ) (found : s.stagedWrites.get i = some id) :
        i < index ∧ id < s.artifacts.length := by
      obtain ⟨artifact, here, -⟩ := forward.staged i id (Nat.zero_le i) found
      exact ⟨now.known i id found, (List.getElem?_eq_some_iff.mp here).1⟩
    have finish (v : Tree α) (same : SameVisible v s.tree) (forward₂ : Forward root 0
        (((s.nextUuid.setTree u).addArtifact
          ⟨siblingPath path .stage s.uuid, .stage, true, true⟩).setTree v)) :
        StagingAt root tree made' (index + 1) ((((s.nextUuid.setTree u).addArtifact
          ⟨siblingPath path .stage s.uuid, .stage, true, true⟩).setTree v).addStaged index) := by
      refine ⟨stagedWith _ same staged₁ ⟨rfl, rfl⟩,
        forward₂.addStaged (b := s.artifacts) rfl isStage rfl known, fun i id found => ?_⟩
      rw [Transaction.addStaged_stagedWrites, OrderedMap.get_set] at found
      split at found
      · omega
      · exact (now.known i id found).trans (Nat.lt_succ_self index)
    cases existing with
    | none =>
        refine bind_at (Q := fun _ => True) (Triple.pure () fun _ same => ⟨same, trivial⟩)
          fun _ _ => Triple.modify ?_
        rintro _ rfl
        exact ⟨made', finish u visible forward₁, unmade⟩
    | some node =>
        refine treeCall_at (bad _ (by trivial) (by simp) _
          ⟨stagedWith _ visible staged₁ ⟨rfl, rfl⟩, forward₁.accounted⟩) fun v changed => ?_
        apply Triple.modify
        rintro _ rfl
        have sameVisible : SameVisible v s.tree := by
          intro q notStage
          obtain ⟨content', old, -, get⟩ := FileTree.get_chmod changed q
          rw [get, if_neg]
          · exact visible q notStage
          · rintro rfl
            exact notStage isStage
        exact ⟨made', finish v sameVisible (forward₁.chmod changed), unmade⟩

theorem stageWrite_spec (now : StagingAt root tree made index s)
    (rooted : tree.get [] = some .directory) (plain : PlainPath path) :
    Triple (fun x => x = s)
      (stageWrite root fault (.staging index) index path content overwrite mode)
      (fun _ x => ∃ made', StagingAt root tree made' (index + 1) x ∧
        (made' = [] ↔ made = [] ∧ tree.get (dirname path) = some .directory))
      (StagingFailed root fault tree made index path) fun _ => False := by
  have early (call : Call) (before : ¬ pastMkdir fault ⟨.staging index, call⟩)
      (notWrite : call ≠ .writeFile) (message : String) :
      StagingFailed root fault tree made index path (.failed ⟨.staging index, call⟩ message) s :=
    ⟨call, message, made, rfl, now.staged, by simp [before],
      by simp [now.forward.accounted, notWrite]⟩
  refine bind_at (checkSafe_spec (early _ id (by simp))) fun _ _ => ?_
  refine bind_at (lstatIfPresent_spec (early _ id (by simp))) fun existing _ => ?_
  refine Triple.ite (fun _ => fail_at _ (early _ id (by simp) _)) fun _ => ?_
  refine Triple.ite (fun _ => fail_at _ (early _ id (by simp) _)) fun _ => ?_
  refine Triple.bind (ensureDirectory_staging now.staged now.forward rooted plain.dirname ?_)
    fun _ => Triple.of_pre ?_
  · intro call message made' x staged accounted notWrite unmade
    exact ⟨call, message, made', rfl, staged, unmade, by simp [accounted, notWrite]⟩
  · rintro x ⟨made', staged, forward, kept, present, unmade⟩
    have known : ∀ i id, x.stagedWrites.get i = some id → i < index := by
      rw [kept]
      exact now.known
    exact stageFile_spec ⟨staged, forward, known⟩ plain present unmade existing

end Write

/-! ### The phase -/

/-- The directory that the stage file goes to is in the tree. -/
def FoundToStage (operation : FileOperation α) (tree : Tree α) : Prop :=
  match operation with
  | .write path _ _ _ => tree.get (dirname path) = some .directory
  | .mkdir _ | .move _ _ | .remove _ => True

theorem zipIdx_split {β : Type} {l : List β} {done rest : List (β × ℕ)} {b : β} {index : ℕ}
    (split : l.zipIdx = done ++ (b, index) :: rest) :
    index = done.length ∧ l[index]? = some b ∧ done.map Prod.fst = l.take index := by
  have here : l.zipIdx[done.length]? = some (b, index) := by
    rw [split, List.getElem?_append_right le_rfl, Nat.sub_self, List.getElem?_cons_zero]
  rw [List.getElem?_zipIdx, Option.map_eq_some_iff] at here
  obtain ⟨b', at_place, same⟩ := here
  obtain ⟨rfl, place⟩ := Prod.mk.inj same
  rw [Nat.zero_add] at place
  subst place
  refine ⟨rfl, at_place, ?_⟩
  calc done.map Prod.fst = (l.zipIdx.take done.length).map Prod.fst := by
        rw [split, List.take_left' rfl]
    _ = l.take done.length := by
        rw [List.map_take, List.zipIdx_map_fst]

/-- The state after the writes among these operations have been staged. -/
def StagedFirst (root : FilePath) (tree : Tree α) (operations : List (FileOperation α))
    (x : Transaction α) : Prop :=
  ∃ made, StagingAt root tree made operations.length x ∧
    (made = [] ↔ ∀ operation ∈ operations, FoundToStage operation tree)

/-- A call has failed while one of these operations was staged. -/
def StageWritesFailed (root : FilePath) (fault : Option Fault) (tree : Tree α)
    (operations : List (FileOperation α)) (failure : Failure) (x : Transaction α) : Prop :=
  ∃ index operation call message made,
    operations[index]? = some operation ∧ failure = .failed ⟨.staging index, call⟩ message ∧
    Staged tree made x ∧
    (made = [] ↔ (∀ operation ∈ operations.take index, FoundToStage operation tree) ∧
      (pastMkdir fault ⟨.staging index, call⟩ → FoundToStage operation tree)) ∧
    (Accounted root x ↔
      ¬ (call = .writeFile ∧ residueAt fault ⟨.staging index, call⟩ ≠ 0))

/-- One round of the loop. -/
theorem stageOperation_spec {operations : List (FileOperation α)} {operation : FileOperation α}
    (rooted : tree.get [] = some .directory) (plain : PlainOperation operation) {index : ℕ}
    (here : operations[index]? = some operation) (round : (operations.take index).length = index) :
    Triple (StagedFirst root tree (operations.take index))
      (stageOperation root fault index operation)
      (fun _ => StagedFirst root tree (operations.take index ++ [operation]))
      (StageWritesFailed root fault tree operations) fun _ => False := by
  apply Triple.of_pre
  rintro s ⟨made, now, unmade⟩
  rw [round] at now
  have count : (operations.take index ++ [operation]).length = index + 1 := by
    rw [List.length_append, List.length_singleton, round]
  cases operation with
  | write path content overwrite mode =>
      have plainPath : PlainPath path := plain path (by simp [operationPaths])
      refine (stageWrite_spec now rooted plainPath).weaken (fun _ same => same) ?_ ?_ fun _ h => h
      · rintro _ x ⟨made', next, unmade'⟩
        refine ⟨made', count ▸ next, ?_⟩
        rw [unmade', unmade, List.forall_mem_append, List.forall_mem_singleton]
        rfl
      · rintro failure x ⟨call, message, made', same, staged, unmade', accounted⟩
        refine ⟨index, _, call, message, made', here, same, staged, ?_, accounted⟩
        rw [unmade', unmade]
        rfl
  | mkdir _ | move _ _ | remove _ =>
      apply Triple.pure
      rintro _ rfl
      refine ⟨made, ⟨now.staged, now.forward, ?_⟩, ?_⟩
      · rw [count]
        exact fun i id found => (now.known i id found).trans (Nat.lt_succ_self index)
      · rw [unmade, List.forall_mem_append, List.forall_mem_singleton, and_iff_left]
        trivial

/-- The staging phase from a tree of plain names. -/
theorem stageWrites_spec {operations : List (FileOperation α)}
    (rooted : tree.get [] = some .directory) (plainTree : ∀ q, tree.get q ≠ none → PlainPath q)
    (plain : ∀ operation ∈ operations, PlainOperation operation) :
    Triple (fun x => x = Transaction.start tree) (stageWrites root fault operations)
      (fun _ => StagedFirst root tree operations) (StageWritesFailed root fault tree operations)
      fun _ => False := by
  have start : StagingAt root tree [] 0 (Transaction.start tree) := by
    refine ⟨⟨fun q _ => by simp [Transaction.start], by simp, by simp [Transaction.start],
      by simp [Transaction.start], rfl⟩, ⟨?_, by simp [Transaction.start], ?_,
      by simp [Transaction.start], by simp [Transaction.start], by simp [Transaction.start]⟩,
      by simp [Transaction.start]⟩
    · intro q stage present
      exact absurd stage (plainTree q present).not_isStage
    · exact fun q present label uuid mem => ((plainTree q present) _ mem).elim
  have loop : Triple (fun x => StagedFirst root tree (List.map Prod.fst ([] : List (_ × ℕ))) x)
      (stageWrites root fault operations)
      (fun _ x => StagedFirst root tree (operations.zipIdx.map Prod.fst) x)
      (StageWritesFailed root fault tree operations) fun _ => False := by
    apply Triple.forEach (I := fun done x => StagedFirst root tree (done.map Prod.fst) x)
    rintro done ⟨operation, index⟩ rest split
    obtain ⟨place, here, before⟩ := zipIdx_split split
    have round : (operations.take index).length = index := by
      rw [← before, List.length_map, place]
    rw [List.map_append, before]
    exact stageOperation_spec rooted (plain operation (List.mem_of_getElem? here)) here round
  rw [List.zipIdx_map_fst] at loop
  refine loop.adapt ?_ fun _ _ h => h
  rintro _ rfl
  exact ⟨[], start, by simp⟩

end Staging

end OmpBundler.Cli
