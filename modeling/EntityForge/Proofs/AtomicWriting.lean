import EntityForge.Files.Atomic
import EntityForge.Files.Disk

/-!
# What writing a file touches

A text is written to a neighbour of its file, which is renamed. Every operation may fail, at any point. The name of the
neighbour is its own only as long as nobody else uses it, and when the last operation fails the neighbour stays behind.

Main statement: `writeAtomically_touches_iff`, which tells for every disk what is different after a success and after a
failure, and when this is more than it should be.
-/

namespace EntityForge

namespace FileTree

variable {tree later : FileTree} {here next place : Place} {part : String} {parts rest : List String}

/-! ## Places that paths name -/

/-- The place that a part of a path leads to, whatever is there. -/
def step? (here : Place) (part : String) : Option Place :=
  if part = "" ∨ part = "." then some here
  else if part = ".." then if here = [] then none else some here.dropLast
  else if isName part then some (here ++ [part])
  else none

/-- The place that parts lead to, whatever is on the way. -/
def walk? (here : Place) : List String → Option Place
  | [] => some here
  | part :: rest => (step? here part).bind fun next => walk? next rest

/-- The place that a path names, whatever is on the way. -/
def named? (path : String) : Option Place :=
  if isPath path then walk? [] (Path.parts path) else none

theorem follow?_cons (tree : FileTree) (here : Place) (part : String) (rest : List String) :
    tree.follow? here (part :: rest)
      = if tree.get? here = some .directory then (step? here part).bind fun next => tree.follow? next rest
        else none := by
  rw [follow?, ite_not]
  split
  · unfold step?
    split
    · rfl
    · split
      · split <;> rfl
      · split <;> rfl
  · rfl

/-- Parts that can be followed lead to the place that they lead to whatever is on the way. -/
theorem walk?_of_follow? (h : tree.follow? here parts = some place) : walk? here parts = some place := by
  induction parts generalizing here with
  | nil => exact h
  | cons part rest ih =>
    rw [follow?_cons] at h
    split at h
    · obtain ⟨next, hnext, hrest⟩ := Option.bind_eq_some_iff.mp h
      exact Option.bind_eq_some_iff.mpr ⟨next, hnext, ih hrest⟩
    · cases h

theorem named?_of_place? {path : String} (h : tree.place? path = some place) : named? path = some place := by
  unfold place? at h
  unfold named?
  split at h
  · next hreached => rw [if_pos (Bool.and_eq_true_iff.mp hreached).1, walk?_of_follow? h]
  · cases h

/-- A leading slash changes nothing about the place that a path names: what is absolute begins at the root, and so does
what is relative when the working directory is the root. -/
theorem named?_slash {path : String} (hpath : path ≠ "") (hfits : ("/" ++ path).utf8ByteSize ≤ pathLimit) :
    named? ("/" ++ path) = named? path := by
  have hparts : Path.parts ("/" ++ path) = "" :: Path.parts path := by
    rw [Path.parts, String.toList_append]
    exact congrArg (List.map String.ofList) (Path.partChars_slash path.toList)
  have hshorter : path.utf8ByteSize ≤ pathLimit := by
    rw [String.utf8ByteSize_append] at hfits
    omega
  have habsolute : isPath ("/" ++ path) = true := by
    rw [isPath, Bool.and_eq_true]
    exact ⟨by simp [hpath], by simpa using hfits⟩
  have hrelative : isPath path = true := by
    simp [isPath, hpath, hshorter]
  rw [named?, named?, if_pos habsolute, if_pos hrelative, hparts, walk?, step?, if_pos (.inl rfl), Option.bind_some]

/-! ## New directories -/

/-- A place on the way that parts lead. -/
def OnWay (here : Place) (parts : List String) (place : Place) : Prop :=
  ∃ steps, walk? here (parts.take steps) = some place

theorem OnWay.cons (hstep : step? here part = some next) (h : OnWay next rest place) :
    OnWay here (part :: rest) place := by
  obtain ⟨steps, hsteps⟩ := h
  refine ⟨steps + 1, ?_⟩
  rw [List.take_succ_cons, walk?, hstep]
  exact hsteps

theorem OnWay.of_take {steps : Nat} (h : OnWay here (parts.take steps) place) : OnWay here parts place := by
  obtain ⟨fewer, hfewer⟩ := h
  rw [List.take_take] at hfewer
  exact ⟨_, hfewer⟩

/-- At a place, the later tree has what the earlier one has, or a directory where nothing was and a new one may be. -/
def Kept (mayBeNew : Place → Prop) (tree later : FileTree) (place : Place) : Prop :=
  later.get? place = tree.get? place
    ∨ (tree.get? place = none ∧ later.get? place = some .directory ∧ mayBeNew place)

theorem Kept.imp {mayBeNew mayBeNew' : Place → Prop} (h : Kept mayBeNew tree later place)
    (himp : mayBeNew place → mayBeNew' place) : Kept mayBeNew' tree later place := by
  rcases h with hsame | ⟨hfree, hdirectory, hnew⟩
  · exact .inl hsame
  · exact .inr ⟨hfree, hdirectory, himp hnew⟩

/-- The later tree has all that the earlier one has, and beside it only directories on the way that parts lead. -/
def Grown (here : Place) (parts : List String) (tree later : FileTree) : Prop :=
  ∀ place, Kept (OnWay here parts) tree later place

namespace Grown

theorem refl (here : Place) (parts : List String) (tree : FileTree) : Grown here parts tree tree :=
  fun _ => .inl rfl

theorem cons (hstep : step? here part = some next) (h : Grown next rest tree later) :
    Grown here (part :: rest) tree later :=
  fun place => (h place).imp fun hway => hway.cons hstep

/-- A directory that is made first is on the way, and stays when more are made behind it. -/
theorem cons_of_put (hstep : step? here part = some next) (hne : next ≠ []) (hfree : tree.get? next = none)
    (h : Grown next rest (tree.put next .directory) later) : Grown here (part :: rest) tree later := by
  intro place
  -- What is put there is seen at its own place only, where it is the new directory.
  have hput : tree.get? place = none ∧ place = next
      ∨ (tree.put next .directory).get? place = tree.get? place := by
    by_cases hplace : place = next
    · exact .inl ⟨hplace ▸ hfree, hplace⟩
    · exact .inr (get?_put_of_ne hplace)
  have hnext : (tree.put next .directory).get? next = some .directory := get?_put_self hne
  rcases h.cons hstep place with hsame | ⟨hnone, hdirectory, hway⟩
  · rcases hput with ⟨hnone, rfl⟩ | hother
    · refine .inr ⟨hnone, hsame.trans hnext, 1, ?_⟩
      rw [List.take_succ_cons, List.take_zero, walk?, hstep]
      rfl
    · exact .inl (hsame.trans hother)
  · rcases hput with ⟨-, rfl⟩ | hother
    · rw [hnext] at hnone
      cases hnone
    · exact .inr ⟨hother ▸ hnone, hdirectory, hway⟩

theorem of_take {steps : Nat} (h : Grown here (parts.take steps) tree later) : Grown here parts tree later :=
  fun place => (h place).imp OnWay.of_take

end Grown

/-- Making directories adds directories on the way, whether it succeeds or not. -/
theorem grown_makeDirectories (tree : FileTree) (here : Place) (parts : List String) :
    Grown here parts tree (tree.makeDirectories here parts).2 := by
  induction tree, here, parts using makeDirectories.induct with
  | case1 tree here => exact .refl here [] tree
  | case2 tree here part rest hidle ih =>
    rw [makeDirectories, if_pos hidle]
    exact ih.cons (if_pos hidle)
  | case3 tree rest => exact .refl [] _ tree
  | case4 tree here rest hbelow hparent ih =>
    rw [makeDirectories, if_neg hparent, if_pos rfl, if_neg hbelow]
    refine ih.cons ?_
    rw [step?, if_neg hparent, if_pos rfl, if_neg hbelow]
  | case5 tree here part rest hidle hparent hname =>
    rw [makeDirectories, if_neg hidle, if_neg hparent, if_pos hname]
    exact .refl here _ tree
  | case6 tree here part rest hidle hparent hname hdirectory ih =>
    rw [makeDirectories, if_neg hidle, if_neg hparent, if_neg hname, hdirectory]
    refine ih.cons ?_
    rw [step?, if_neg hidle, if_neg hparent, if_pos (by simpa using hname)]
  | case7 tree here part rest hidle hparent hname text hfile =>
    rw [makeDirectories, if_neg hidle, if_neg hparent, if_neg hname, hfile]
    exact .refl here _ tree
  | case8 tree here part rest hidle hparent hname hfree ih =>
    rw [makeDirectories, if_neg hidle, if_neg hparent, if_neg hname, hfree]
    refine ih.cons_of_put ?_ (by simp) hfree
    rw [step?, if_neg hidle, if_neg hparent, if_pos (by simpa using hname)]

/-! ## What the operations touch -/

section Operations

variable (fault : Option DiskFault) (tree : FileTree) (path target text : String)

theorem grown_createDirectoriesUnder :
    Grown [] (Path.parts path) tree (tree.createDirectoriesUnder fault path).2 := by
  unfold createDirectoriesUnder createDirectories
  cases fault with
  | none =>
    show Grown [] _ tree (if tree.reaches path then _ else _ : Bool × FileTree).2
    split
    · exact grown_makeDirectories tree [] _
    · exact .refl [] _ tree
  | some fault =>
    cases fault with
    | refused => exact .refl [] _ tree
    | brokenOff steps =>
      show Grown [] _ tree (if tree.reaches path then _ else _ : Bool × FileTree).2
      split
      · exact (grown_makeDirectories tree [] _).of_take
      · exact .refl [] _ tree

theorem writeText_cases :
    tree.writeText path text = (false, tree)
      ∨ ∃ place, named? path = some place ∧ place ≠ []
        ∧ tree.writeText path text = (true, tree.put place (.file text)) := by
  unfold writeText
  cases hplace : tree.place? path with
  | none => exact .inl rfl
  | some place =>
    by_cases hdirectory : tree.get? place = some .directory
    · exact .inl (if_pos hdirectory)
    · refine .inr ⟨place, named?_of_place? hplace, ?_, if_neg hdirectory⟩
      rintro rfl
      exact hdirectory rfl

/-- Writing changes nothing, or leaves a beginning of the text at the place that the path names. If it succeeds, that is
the whole text. -/
theorem writeTextUnder_cases :
    tree.writeTextUnder fault path text = (false, tree)
      ∨ ∃ place front done, named? path = some place ∧ place ≠ [] ∧ front <+: text.toList
        ∧ (done = true → front = text.toList)
        ∧ tree.writeTextUnder fault path text = (done, tree.put place (.file (String.ofList front))) := by
  unfold writeTextUnder
  cases fault with
  | none =>
    rcases tree.writeText_cases path text with hsame | ⟨place, hplace, hne, hput⟩
    · exact .inl hsame
    · refine .inr ⟨place, text.toList, true, hplace, hne, List.prefix_refl _, fun _ => rfl, ?_⟩
      rw [String.ofList_toList]
      exact hput
  | some fault =>
    cases fault with
    | refused => exact .inl rfl
    | brokenOff steps =>
      rcases tree.writeText_cases path (String.ofList (text.toList.take steps)) with hsame | ⟨place, hplace, hne, hput⟩
      · exact .inl (congrArg (fun result => (false, result.2)) hsame)
      · refine .inr ⟨place, text.toList.take steps, false, hplace, hne, List.take_prefix _ _, nofun, ?_⟩
        exact congrArg (fun result => (false, result.2)) hput

/-- Renaming changes nothing, or moves the file that the one path names to the place that the other path names. -/
theorem renameUnder_cases :
    tree.renameUnder fault path target = (false, tree)
      ∨ ∃ source place text, named? path = some source ∧ named? target = some place ∧ place ≠ []
        ∧ tree.get? source = some (.file text)
        ∧ tree.renameUnder fault path target = (true, (tree.remove source).put place (.file text)) := by
  unfold renameUnder
  cases fault with
  | some fault => exact .inl rfl
  | none =>
    unfold rename
    cases hsource : tree.place? path with
    | none => exact .inl rfl
    | some source =>
      cases hplace : tree.place? target with
      | none => exact .inl rfl
      | some place =>
        rcases hentry : tree.get? source with _ | text | _
        · exact .inl (by simp [hentry])
        · by_cases hdirectory : tree.get? place = some .directory
          · exact .inl (by simp [hentry, hdirectory])
          · refine .inr ⟨source, place, text, named?_of_place? hsource, named?_of_place? hplace, ?_, hentry, ?_⟩
            · rintro rfl
              exact hdirectory rfl
            · simp [hentry, hdirectory]
        · exact .inl (by simp [hentry])

end Operations

end FileTree

namespace Disk

/-- Writes a text to the file of a path, and tells how that ended. -/
def write (disk : Disk) (path text : String) : Except GenerationError Unit × Disk :=
  (writeAtomically path text : ExceptT GenerationError (StateM Disk) Unit).run.run disk

/-! ## Runs on a disk -/

section Run

variable {σ α β : Type}

theorem run_bind (action : ExceptT GenerationError (StateM σ) α) (next : α → ExceptT GenerationError (StateM σ) β)
    (s : σ) :
    (action >>= next).run.run s
      = match action.run.run s with
        | (.ok a, s) => (next a).run.run s
        | (.error e, s) => (.error e, s) := by
  rw [ExceptT.run_bind, StateT.run_bind]
  rcases action.run.run s with ⟨_ | _, _⟩ <;> rfl

/-- The run goes on after an operation only if it succeeds. -/
theorem run_needSuccess (path : String) {operation : StateM σ Bool} {s later : σ} {done : Bool}
    (h : operation.run s = (done, later)) :
    (needSuccess path operation : ExceptT GenerationError (StateM σ) Unit).run.run s
      = (if done then .ok () else .error (.unwritable path), later) := by
  have hlift : (liftM operation : ExceptT GenerationError (StateM σ) Bool).run.run s
      = (.ok (operation.run s).1, (operation.run s).2) := rfl
  rw [needSuccess, run_bind, hlift, h]
  cases done <;> rfl

end Run

section Operations

variable {disk : Disk} {path text target : String} {done : Bool} {later : FileTree}

/-- An operation meets the next fault. -/
theorem run_operate {operation : Option DiskFault → FileTree → Bool × FileTree} {done : Bool} {later : FileTree}
    (h : operation disk.faults.head?.join disk.tree = (done, later)) :
    (operate operation).run disk = (done, { tree := later, faults := disk.faults.tail }) := by
  show ((operation _ disk.tree).1, ({ tree := (operation _ disk.tree).2, faults := disk.faults.tail } : Disk)) = _
  rw [h]

theorem run_createDirectories
    (h : disk.tree.createDirectoriesUnder disk.faults.head?.join path = (done, later)) :
    (FileSystem.createDirectories path : StateM Disk Bool).run disk
      = (done, { tree := later, faults := disk.faults.tail }) :=
  run_operate h

theorem run_writeText (h : disk.tree.writeTextUnder disk.faults.head?.join path text = (done, later)) :
    (FileSystem.writeText path text : StateM Disk Bool).run disk
      = (done, { tree := later, faults := disk.faults.tail }) :=
  run_operate h

theorem run_rename (h : disk.tree.renameUnder disk.faults.head?.join path target = (done, later)) :
    (FileSystem.rename path target : StateM Disk Bool).run disk
      = (done, { tree := later, faults := disk.faults.tail }) :=
  run_operate h

end Operations

/-! ## Disks without faults -/

/-- Where no fault is met, the one action does to a disk what the other does to its tree. -/
def Follows {α : Type} (action : ExceptT GenerationError (StateM Disk) α)
    (onTree : ExceptT GenerationError (StateM FileTree) α) : Prop :=
  ∀ tree, action.run.run { tree, faults := [] }
    = ((onTree.run.run tree).1, { tree := (onTree.run.run tree).2, faults := [] })

theorem Follows.bind {α β : Type} {action : ExceptT GenerationError (StateM Disk) α}
    {onTree : ExceptT GenerationError (StateM FileTree) α} {next : α → ExceptT GenerationError (StateM Disk) β}
    {nextOnTree : α → ExceptT GenerationError (StateM FileTree) β} (h : Follows action onTree)
    (hnext : ∀ a, Follows (next a) (nextOnTree a)) : Follows (action >>= next) (onTree >>= nextOnTree) := by
  intro tree
  rw [run_bind, run_bind, h tree]
  rcases onTree.run.run tree with ⟨e | a, later⟩
  · rfl
  · exact hnext a later

theorem Follows.needSuccess (path : String) {operation : StateM Disk Bool} {onTree : StateM FileTree Bool}
    (h : ∀ tree, operation.run { tree, faults := [] }
      = ((onTree.run tree).1, { tree := (onTree.run tree).2, faults := [] })) :
    Follows (needSuccess path operation) (needSuccess path onTree) := by
  intro tree
  rw [run_needSuccess path (h tree), run_needSuccess path (rfl : onTree.run tree = (_, _))]
  rfl

/-- On a disk without faults, a file is written as on its tree. -/
theorem follows_writeAtomically (path text : String) :
    Follows (writeAtomically path text) (writeAtomically path text) := by
  have hreplace : ∀ neighbour, Follows
      (do
        needSuccess neighbour (FileSystem.writeText neighbour text)
        needSuccess path (FileSystem.rename neighbour path))
      (do
        needSuccess neighbour (FileSystem.writeText neighbour text)
        needSuccess path (FileSystem.rename neighbour path)) := by
    intro neighbour
    exact (Follows.needSuccess neighbour fun _ => rfl).bind fun _ => .needSuccess path fun _ => rfl
  unfold writeAtomically
  cases Path.parent? path with
  | none => exact hreplace _
  | some parent => exact (Follows.needSuccess parent fun _ => rfl).bind fun _ => hreplace _

/-! ## How writing a file ends -/

/-- A place on the way to the directory that holds the last part of a path. -/
def IsAbove (path : String) (place : Place) : Prop :=
  ∃ parent ∈ Path.parent? path, FileTree.OnWay [] (Path.parts parent) place

/-- The later tree is like the earlier one, but for some places and for new directories above the last part of a
path. -/
def AlikeBut (changed : List Place) (path : String) (tree later : FileTree) : Prop :=
  ∀ place ∉ changed, FileTree.Kept (IsAbove path) tree later place

/-- The path of the neighbour that a text is written to first. -/
abbrev neighbourPath (path : String) : String :=
  Path.withExtension "tmp" path

/-- How writing a text to the file of a path can end, and what is there then. -/
inductive WriteOutcome (tree : FileTree) (path text : String) : Except GenerationError Unit → FileTree → Prop where
  /-- A directory is not there and cannot be made. -/
  | noDirectory {parent : String} {later : FileTree} (hparent : Path.parent? path = some parent)
    (halike : AlikeBut [] path tree later) : WriteOutcome tree path text (.error (.unwritable parent)) later
  /-- The neighbour is not written. -/
  | unwritten {later : FileTree} (halike : AlikeBut [] path tree later) :
    WriteOutcome tree path text (.error (.unwritable (neighbourPath path))) later
  /-- The neighbour is written in part. -/
  | brokenOff {later : FileTree} {neighbour : Place} {front : List Char}
    (hneighbour : FileTree.named? (neighbourPath path) = some neighbour) (hfront : front <+: text.toList)
    (hfile : later.get? neighbour = some (.file (String.ofList front)))
    (halike : AlikeBut [neighbour] path tree later) :
    WriteOutcome tree path text (.error (.unwritable (neighbourPath path))) later
  /-- The neighbour is written, and not renamed. -/
  | unrenamed {later : FileTree} {neighbour : Place}
    (hneighbour : FileTree.named? (neighbourPath path) = some neighbour)
    (hfile : later.get? neighbour = some (.file text)) (halike : AlikeBut [neighbour] path tree later) :
    WriteOutcome tree path text (.error (.unwritable path)) later
  /-- The neighbour is written and renamed. -/
  | written {later : FileTree} {target neighbour : Place} (htarget : FileTree.named? path = some target)
    (hneighbour : FileTree.named? (neighbourPath path) = some neighbour)
    (hfile : later.get? target = some (.file text)) (hgone : neighbour ≠ target → later.get? neighbour = none)
    (halike : AlikeBut [target, neighbour] path tree later) : WriteOutcome tree path text (.ok ()) later

theorem AlikeBut.refl (changed : List Place) (path : String) (tree : FileTree) : AlikeBut changed path tree tree :=
  fun _ _ => .inl rfl

/-- What is then changed at places that may be different leaves the trees alike. -/
theorem AlikeBut.of_get?_eq {changed changed' : List Place} {path : String} {tree later last : FileTree}
    (h : AlikeBut changed path tree later)
    (hchanged : ∀ place ∉ changed', place ∉ changed ∧ last.get? place = later.get? place) :
    AlikeBut changed' path tree last := by
  intro place hplace
  obtain ⟨hnot, hsame⟩ := hchanged place hplace
  rw [FileTree.Kept, hsame]
  exact h place hnot

theorem alikeBut_of_grown {path parent : String} {tree later : FileTree} (hparent : Path.parent? path = some parent)
    (h : FileTree.Grown [] (Path.parts parent) tree later) : AlikeBut [] path tree later :=
  fun place _ => (h place).imp fun hway => ⟨parent, hparent, hway⟩

section Outcome

variable {disk later : Disk} {path text : String} {result : Except GenerationError Unit}

/-- When the neighbour holds the text, it is renamed or stays behind. -/
theorem outcome_of_run_rename {tree : FileTree} {neighbour : Place}
    (hneighbour : FileTree.named? (neighbourPath path) = some neighbour)
    (hfile : disk.tree.get? neighbour = some (.file text)) (halike : AlikeBut [neighbour] path tree disk.tree)
    (h : (needSuccess path (FileSystem.rename (neighbourPath path) path) :
      ExceptT GenerationError (StateM Disk) Unit).run.run disk = (result, later)) :
    WriteOutcome tree path text result later.tree := by
  rcases disk.tree.renameUnder_cases disk.faults.head?.join (neighbourPath path) path with
    hsame | ⟨source, target, moved, hsource, htarget, hne, hmoved, hrenamed⟩
  · rw [run_needSuccess _ (run_rename hsame)] at h
    obtain ⟨rfl, rfl⟩ := Prod.mk.inj h
    exact .unrenamed hneighbour hfile halike
  · rw [run_needSuccess _ (run_rename hrenamed)] at h
    obtain ⟨rfl, rfl⟩ := Prod.mk.inj h
    obtain rfl : neighbour = source := Option.some.inj (hneighbour.symm.trans hsource)
    obtain rfl : text = moved := by simpa [hfile] using hmoved
    refine .written htarget hneighbour (FileTree.get?_put_self hne) (fun hother => ?_)
      (halike.of_get?_eq fun place hplace => ?_)
    · have hroot : neighbour ≠ [] := by
        rintro rfl
        cases hfile
      rw [FileTree.get?_put_of_ne hother, FileTree.get?_remove_self hroot]
    · obtain ⟨hnot, hother⟩ : place ≠ target ∧ place ≠ neighbour := by simpa using hplace
      refine ⟨by simpa using hother, ?_⟩
      rw [FileTree.get?_put_of_ne hnot, FileTree.get?_remove_of_ne hother]

/-- When the directories are there, the neighbour is written and renamed. -/
theorem outcome_of_run_replace {tree : FileTree} (halike : AlikeBut [] path tree disk.tree)
    (h : (do
      needSuccess (neighbourPath path) (FileSystem.writeText (neighbourPath path) text)
      needSuccess path (FileSystem.rename (neighbourPath path) path) :
        ExceptT GenerationError (StateM Disk) Unit).run.run disk = (result, later)) :
    WriteOutcome tree path text result later.tree := by
  rw [run_bind] at h
  rcases disk.tree.writeTextUnder_cases disk.faults.head?.join (neighbourPath path) text with
    hsame | ⟨neighbour, front, done, hneighbour, hne, hfront, hwhole, hput⟩
  · rw [run_needSuccess _ (run_writeText hsame)] at h
    obtain ⟨rfl, rfl⟩ := Prod.mk.inj h
    exact .unwritten halike
  · rw [run_needSuccess _ (run_writeText hput)] at h
    have hfile : (disk.tree.put neighbour (.file (String.ofList front))).get? neighbour
        = some (.file (String.ofList front)) := FileTree.get?_put_self hne
    have hothers : AlikeBut [neighbour] path tree (disk.tree.put neighbour (.file (String.ofList front))) := by
      refine halike.of_get?_eq fun place hplace => ⟨List.not_mem_nil, ?_⟩
      rw [List.mem_singleton] at hplace
      exact FileTree.get?_put_of_ne hplace
    cases done with
    | false =>
      obtain ⟨rfl, rfl⟩ := Prod.mk.inj h
      exact .brokenOff hneighbour hfront hfile hothers
    | true =>
      rw [hwhole rfl, String.ofList_toList] at hfile hothers h
      exact outcome_of_run_rename hneighbour hfile hothers h

/-- Whatever fails, writing ends in one of these ways. -/
theorem outcome_of_write (h : disk.write path text = (result, later)) :
    WriteOutcome disk.tree path text result later.tree := by
  unfold write writeAtomically at h
  cases hparent : Path.parent? path with
  | none =>
    rw [hparent] at h
    exact outcome_of_run_replace (.refl [] path disk.tree) h
  | some parent =>
    rw [hparent] at h
    rcases hcreated : disk.tree.createDirectoriesUnder disk.faults.head?.join parent with ⟨done, grown⟩
    have hgrown := disk.tree.grown_createDirectoriesUnder disk.faults.head?.join parent
    rw [hcreated] at hgrown
    simp only [run_bind _ _ disk, run_needSuccess _ (run_createDirectories hcreated)] at h
    cases done with
    | false =>
      obtain ⟨rfl, rfl⟩ := Prod.mk.inj h
      exact .noDirectory hparent (alikeBut_of_grown hparent hgrown)
    | true => exact outcome_of_run_replace (alikeBut_of_grown hparent hgrown) h

end Outcome

/-! ## What is different afterwards -/

/-- Only the file of the path is different, which holds the text; above it, directories may be new. -/
def ReplacesOnly (path text : String) (tree later : FileTree) : Prop :=
  ∃ target, FileTree.named? path = some target ∧ later.get? target = some (.file text)
    ∧ AlikeBut [target] path tree later

/-- The trees have the same files with the same texts. -/
def SameFiles (tree later : FileTree) : Prop :=
  ∀ place text, later.get? place = some (.file text) ↔ tree.get? place = some (.file text)

section Touched

variable {tree later : FileTree} {path text : String} {place : Place}

/-- Trees that are alike at a place have the same file there, if any. -/
theorem AlikeBut.file_iff {changed : List Place} (h : AlikeBut changed path tree later) (hplace : place ∉ changed) :
    later.get? place = some (.file text) ↔ tree.get? place = some (.file text) := by
  rcases h place hplace with hsame | ⟨hfree, hdirectory, -⟩
  · rw [hsame]
  · simp [hfree, hdirectory]

theorem AlikeBut.sameFiles (h : AlikeBut [] path tree later) : SameFiles tree later :=
  fun _ _ => h.file_iff List.not_mem_nil

/-- Trees that are alike but at one place have the same files exactly when they have the same file there. -/
theorem AlikeBut.sameFiles_iff (h : AlikeBut [place] path tree later) (hfile : later.get? place = some (.file text)) :
    SameFiles tree later ↔ tree.get? place = some (.file text) := by
  constructor
  · intro hsame
    exact (hsame place text).mp hfile
  · intro hbefore other content
    by_cases hother : other = place
    · rw [hother, hfile, hbefore]
    · exact h.file_iff (by simpa using hother)

/-- After a success, only the file of the path is different exactly when there was nothing at the neighbour, unless the
neighbour is the file itself. -/
theorem AlikeBut.replacesOnly_iff {target neighbour : Place} (h : AlikeBut [target, neighbour] path tree later)
    (htarget : FileTree.named? path = some target) (hfile : later.get? target = some (.file text))
    (hgone : neighbour ≠ target → later.get? neighbour = none) :
    ReplacesOnly path text tree later ↔ neighbour = target ∨ tree.get? neighbour = none := by
  constructor
  · rintro ⟨_, hsame, -, halike⟩
    obtain rfl := Option.some.inj (htarget.symm.trans hsame)
    by_cases heq : neighbour = target
    · exact .inl heq
    · rcases halike neighbour (by simpa using heq) with hsame | ⟨hfree, -⟩
      · exact .inr (hsame.symm.trans (hgone heq))
      · exact .inr hfree
  · intro hfree
    refine ⟨target, htarget, hfile, fun other hother => ?_⟩
    rw [List.mem_singleton] at hother
    by_cases heq : other = neighbour
    · subst heq
      rcases hfree with hself | hnone
      · exact absurd hself hother
      · exact .inl ((hgone hother).trans hnone.symm)
    · exact h other (by simp [hother, heq])

end Touched

/-- **Writing a file in one step.** Whatever is on the disk, and whichever operation fails at whatever point: after a
success, the file holds the text, nothing is at its neighbour, and all else is as before, but for directories that had
to be made; so only the file is different exactly when nothing was at the neighbour. After a failure, either all files
are as before, or the neighbour holds a beginning of the text, all of it when the file was not to be replaced, and all
other files are as before; then the files are the same exactly when the neighbour held just that before. -/
theorem writeAtomically_touches_iff (disk : Disk) (path text : String) :
    (∀ later, disk.write path text = (.ok (), later) →
      ∃ target neighbour, FileTree.named? path = some target ∧ FileTree.named? (neighbourPath path) = some neighbour
        ∧ later.tree.get? target = some (.file text) ∧ (neighbour ≠ target → later.tree.get? neighbour = none)
        ∧ AlikeBut [target, neighbour] path disk.tree later.tree
        ∧ (ReplacesOnly path text disk.tree later.tree ↔ neighbour = target ∨ disk.tree.get? neighbour = none))
      ∧ ∀ error later, disk.write path text = (.error error, later) →
        (AlikeBut [] path disk.tree later.tree ∧ SameFiles disk.tree later.tree)
          ∨ ∃ neighbour front, FileTree.named? (neighbourPath path) = some neighbour ∧ front <+: text.toList
            ∧ later.tree.get? neighbour = some (.file (String.ofList front))
            ∧ (error = .unwritable (neighbourPath path) ∨ error = .unwritable path ∧ front = text.toList)
            ∧ AlikeBut [neighbour] path disk.tree later.tree
            ∧ (SameFiles disk.tree later.tree ↔ disk.tree.get? neighbour = some (.file (String.ofList front))) := by
  constructor
  · intro later h
    cases outcome_of_write h with
    | @written _ target neighbour htarget hneighbour hfile hgone halike =>
      exact ⟨target, neighbour, htarget, hneighbour, hfile, hgone, halike,
        halike.replacesOnly_iff htarget hfile hgone⟩
  · intro error later h
    cases outcome_of_write h with
    | noDirectory _ halike => exact .inl ⟨halike, halike.sameFiles⟩
    | unwritten halike => exact .inl ⟨halike, halike.sameFiles⟩
    | @brokenOff _ neighbour front hneighbour hfront hfile halike =>
      exact .inr ⟨neighbour, front, hneighbour, hfront, hfile, .inl rfl, halike, halike.sameFiles_iff hfile⟩
    | @unrenamed _ neighbour hneighbour hfile halike =>
      -- The whole text is a beginning of itself.
      rw [← String.ofList_toList (s := text)] at hfile
      exact .inr ⟨neighbour, text.toList, hneighbour, List.prefix_refl _, hfile, .inr ⟨rfl, rfl⟩, halike,
        halike.sameFiles_iff hfile⟩

/-- A disk with a directory in the place of `Tag.java` if that is asked for, notes in `Tag.tmp`, and no faults. -/
def notesDisk (blocked : Bool) : Disk where
  tree :=
    { entries := (["out", "Tag.tmp"], .file "notes") :: (["out"], .directory)
        :: if blocked then [(["out", "Tag.java"], .directory)] else [] }
  faults := []

/-- With a name that nobody else uses for the neighbour, only the file is different, and the directory above it. -/
theorem writeAtomically_touches_label :
    ∃ later, (notesDisk false).write "out/shop/Label.java" "class Label" = (.ok (), later)
      ∧ ReplacesOnly "out/shop/Label.java" "class Label" (notesDisk false).tree later.tree := by
  have hwrite : (notesDisk false).write "out/shop/Label.java" "class Label"
      = (.ok (), ((notesDisk false).write "out/shop/Label.java" "class Label").2) :=
    Prod.ext rfl rfl
  obtain ⟨target, neighbour, -, hneighbour, -, -, -, hiff⟩ :=
    (writeAtomically_touches_iff (notesDisk false) "out/shop/Label.java" "class Label").1 _ hwrite
  refine ⟨_, hwrite, hiff.mpr (.inr ?_)⟩
  have hnamed : FileTree.named? (neighbourPath "out/shop/Label.java") = some ["out", "shop", "Label.tmp"] := by
    decide +kernel
  rw [← Option.some.inj (hnamed.symm.trans hneighbour)]
  decide +kernel

/-- From the root of the disk, the file may be named by an absolute path. -/
example : ((Disk.mk ⟨[], true⟩ []).write "/out/shop/Label.java" "class Label").2.tree.get? ["out", "shop", "Label.java"]
    = some (.file "class Label") := by
  decide +kernel

/-- Notes that an author keeps under the name of the neighbour are lost, after a success and after a failure. -/
theorem writeAtomically_loses_notes :
    (∃ later, (notesDisk false).write "out/Tag.java" "class Tag" = (.ok (), later)
        ∧ (notesDisk false).tree.get? ["out", "Tag.tmp"] = some (.file "notes")
        ∧ later.tree.get? ["out", "Tag.tmp"] = none)
      ∧ ∃ later, (notesDisk true).write "out/Tag.java" "class Tag" = (.error (.unwritable "out/Tag.java"), later)
        ∧ later.tree.get? ["out", "Tag.tmp"] = some (.file "class Tag")
        ∧ ¬SameFiles (notesDisk true).tree later.tree := by
  constructor
  · exact ⟨((notesDisk false).write "out/Tag.java" "class Tag").2, Prod.ext rfl rfl, rfl, by decide +kernel⟩
  · have hbefore : (notesDisk true).tree.get? ["out", "Tag.tmp"] = some (.file "notes") := rfl
    have hafter : ((notesDisk true).write "out/Tag.java" "class Tag").2.tree.get? ["out", "Tag.tmp"]
        = some (.file "class Tag") := by
      decide +kernel
    refine ⟨((notesDisk true).write "out/Tag.java" "class Tag").2, Prod.ext rfl rfl, hafter, fun hsame => ?_⟩
    have hkept := (hsame ["out", "Tag.tmp"] "notes").mpr hbefore
    rw [hafter] at hkept
    exact absurd hkept (by decide)

end Disk

end EntityForge
