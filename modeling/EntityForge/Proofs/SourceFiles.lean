import EntityForge.Generation.Writing
import EntityForge.Proofs.ImportClosure

/-!
# Where sources are filed

The file of a class lies below the directory of sources: behind the names of that directory come those of the package,
and then that of the class. A package is any text and becomes a path of its own, so this fails for packages that begin
with a dot or a slash. Their path begins with a slash, and the file is the same whatever the directory of sources.

Main statement: `sourcePath_descends_iff`.
-/

namespace EntityForge

/-! ## Names along a path -/

/-- Splitting the images of items splits the items, each by its image. -/
theorem splitOnP_map {α β : Type} (f : α → β) (p : β → Bool) (as : List α) :
    (as.map f).splitOnP p = (as.splitOnP (p ∘ f)).map (List.map f) := by
  induction as with
  | nil => rfl
  | cons a rest ih =>
    rw [List.map_cons, List.splitOnP_cons_eq_if_modifyHead, List.splitOnP_cons_eq_if_modifyHead, ih]
    by_cases ha : p (f a) = true
    · rw [if_pos ha, if_pos (show (p ∘ f) a = true from ha)]
      rfl
    · rw [if_neg ha, if_neg (show ¬(p ∘ f) a = true from ha)]
      cases rest.splitOnP (p ∘ f) with
      | nil => rfl
      | cons piece pieces => rfl

/-- No separator stands in any piece. -/
theorem eq_false_of_mem_splitOnP {α : Type} {p : α → Bool} {as piece : List α}
    (hpiece : piece ∈ as.splitOnP p) : ∀ a ∈ piece, p a = false := by
  induction as generalizing piece with
  | nil =>
    rw [List.splitOnP_nil, List.mem_singleton] at hpiece
    simp [hpiece]
  | cons a rest ih =>
    rw [List.splitOnP_cons_eq_if_modifyHead] at hpiece
    by_cases ha : p a = true
    · rw [if_pos ha] at hpiece
      rcases List.mem_cons.mp hpiece with rfl | hpiece
      · simp
      · exact ih hpiece
    · rw [if_neg ha] at hpiece
      obtain ⟨first, others, hrest⟩ := List.exists_cons_of_ne_nil (List.splitOnP_ne_nil p rest)
      rw [hrest] at hpiece ih
      rcases List.mem_cons.mp hpiece with rfl | hpiece
      · intro b hb
        rcases List.mem_cons.mp hb with rfl | hb
        · simpa using ha
        · exact ih List.mem_cons_self b hb
      · exact ih (List.mem_cons_of_mem first hpiece)

namespace Path

/-- Whether a part of a path leads somewhere: it is neither empty nor the dot that stands for the same directory. -/
def leadsOn (part : List Char) : Bool :=
  part ≠ [] ∧ part ≠ ['.']

/-- The names that a path leads along. -/
def names (path : String) : List String :=
  ((partChars path.toList).filter leadsOn).map String.ofList

/-- The parts of a path are what its slashes split it into. -/
theorem partChars_eq_splitOnP (cs : List Char) : partChars cs = cs.splitOnP (· = '/') := by
  induction cs with
  | nil => rfl
  | cons c rest ih =>
    rw [partChars, ih, List.splitOnP_cons_eq_if_modifyHead]
    obtain ⟨part, others, hrest⟩ := List.exists_cons_of_ne_nil (List.splitOnP_ne_nil (· = '/') rest)
    rw [hrest]
    simp

theorem names_empty : names "" = [] :=
  rfl

/-- A slash between two paths separates their names. -/
theorem names_append_slash (front back : String) : names (front ++ "/" ++ back) = names front ++ names back := by
  have hchars : (front ++ "/" ++ back).toList = front.toList ++ '/' :: back.toList := by simp
  rw [names, hchars, partChars_eq_splitOnP, List.splitOnP_append_cons _ _ (by simp), List.filter_append,
    List.map_append, ← partChars_eq_splitOnP, ← partChars_eq_splitOnP, names, names]

/-- A text without slashes is a name on its own, unless it leads nowhere. -/
theorem names_eq_singleton {name : String} (hleads : leadsOn name.toList = true) (hslash : '/' ∉ name.toList) :
    names name = [name] := by
  have hpieces : name.toList.splitOnP (· = '/') = [name.toList] := by
    refine List.splitOnP_eq_singleton fun c hc => decide_eq_false ?_
    rintro rfl
    exact hslash hc
  rw [names, partChars_eq_splitOnP, hpieces, List.filter_cons_of_pos hleads, List.filter_nil, List.map_cons,
    List.map_nil, String.ofList_toList]

/-- A path that is not absolute leads on from where it is pushed. -/
theorem names_push {base path : String} (h : isAbsolute path = false) :
    names (push base path) = names base ++ names path := by
  rw [push, if_neg (by simp [h])]
  split
  · next hbase =>
    rcases hbase with rfl | hlast
    · rfl
    -- A base that ends in a slash needs no other: its names are those of what stands before that slash.
    · obtain ⟨front, hfront⟩ : ∃ front : String, base = front ++ "/" := by
        obtain ⟨front, hfront⟩ := List.getLast?_eq_some_iff.mp hlast
        refine ⟨String.ofList front, ?_⟩
        rw [← String.toList_inj, hfront]
        simp
      have hempty : front ++ "/" = front ++ "/" ++ "" := by simp
      rw [hfront, names_append_slash front path, hempty, names_append_slash front "", names_empty, List.append_nil]
  · exact names_append_slash base path

/-- Whatever is not absolute begins where the path begins that it is pushed onto. -/
theorem isAbsolute_push {base path : String} (h : isAbsolute path = false) :
    isAbsolute (push base path) = isAbsolute base := by
  rw [push, if_neg (by simp [h])]
  by_cases hempty : base = ""
  · subst hempty
    rw [if_pos (Or.inl rfl), String.empty_append, h]
    rfl
  · obtain ⟨c, rest, hbase⟩ : ∃ c rest, base.toList = c :: rest :=
      List.exists_cons_of_ne_nil (mt String.toList_eq_nil_iff.mp hempty)
    split <;> simp [isAbsolute, hbase]

/-- The path is that of the top of the file system. -/
def IsTop (path : String) : Prop :=
  isAbsolute path = true ∧ names path = []

/-- The path leads from `root` along `steps`: it begins where `root` begins, goes on with `steps` behind the names of
`root`, and no step leads back up. -/
structure Descends (root : String) (steps : List String) (path : String) : Prop where
  isAbsolute_eq : isAbsolute path = isAbsolute root
  names_eq : names path = names root ++ steps
  not_up : ".." ∉ steps

/-- A path that leads on from the top along some steps does so from no other place along the same steps. -/
theorem Descends.isTop_iff {root path : String} {steps : List String} (h : Descends "/" steps path) :
    Descends root steps path ↔ IsTop root := by
  have hnames : names path = steps := h.names_eq
  have habsolute : isAbsolute path = true := h.isAbsolute_eq
  constructor
  · intro hroot
    refine ⟨by rw [← hroot.isAbsolute_eq, habsolute], ?_⟩
    have hlength := congrArg List.length hroot.names_eq
    rw [hnames, List.length_append] at hlength
    exact List.eq_nil_of_length_eq_zero (by omega)
  · rintro ⟨hroot, hempty⟩
    exact ⟨by rw [habsolute, hroot], by rw [hempty, hnames, List.nil_append], h.not_up⟩

end Path

/-! ## Packages as paths -/

open EntityForge.Path

/-- The parts of a package that are not empty, dots and slashes being what separates them. -/
def packageSteps (package : String) : List String :=
  ((package.toList.splitOnP fun c => c = '.' ∨ c = '/').filter (· ≠ [])).map String.ofList

/-- The package begins with a separator, so that its path begins with a slash. -/
def BeginsApart (package : String) : Prop :=
  package.toList.head? = some '.' ∨ package.toList.head? = some '/'

theorem isAbsolute_packagePath_iff (package : String) :
    isAbsolute (packagePath package) = true ↔ BeginsApart package := by
  rw [isAbsolute, packagePath, String.toList_map, List.head?_map, decide_eq_true_iff, BeginsApart]
  cases package.toList.head? with
  | none => simp
  | some c =>
    rw [Option.map_some, Option.some.injEq, Option.some.injEq, Option.some.injEq]
    by_cases hc : c = '.' <;> simp [hc]

/-- No dot stands in a part of a package. -/
theorem dot_not_mem_of_mem_splitOnP {cs piece : List Char}
    (hpiece : piece ∈ cs.splitOnP fun c => c = '.' ∨ c = '/') : '.' ∉ piece := by
  intro hdot
  have hseparator := eq_false_of_mem_splitOnP hpiece '.' hdot
  simp at hseparator

/-- The path of a package leads along the parts of the package. -/
theorem names_packagePath (package : String) : names (packagePath package) = packageSteps package := by
  have hseparators : ((fun c : Char => decide (c = '/')) ∘ fun c => if c = '.' then '/' else c)
      = fun c => decide (c = '.' ∨ c = '/') := by
    funext c
    by_cases hc : c = '.' <;> simp [hc]
  -- A part has no dots, so it reads the same in the path.
  have hsame : ∀ piece ∈ package.toList.splitOnP (fun c => c = '.' ∨ c = '/'),
      piece.map (fun c => if c = '.' then '/' else c) = piece := by
    intro piece hpiece
    refine (List.map_congr_left fun c hc => ?_).trans (List.map_id piece)
    have hseparator := of_decide_eq_false (eq_false_of_mem_splitOnP hpiece c hc)
    rw [not_or] at hseparator
    exact if_neg hseparator.1
  have hleads : ∀ piece ∈ package.toList.splitOnP (fun c => c = '.' ∨ c = '/'),
      leadsOn piece = decide (piece ≠ []) := by
    intro piece hpiece
    have hne : piece ≠ ['.'] := by
      rintro rfl
      exact dot_not_mem_of_mem_splitOnP hpiece List.mem_cons_self
    simp [leadsOn, hne]
  rw [names, packagePath, String.toList_map, partChars_eq_splitOnP, splitOnP_map, hseparators,
    List.map_congr_left hsame, List.map_id', List.filter_congr hleads, packageSteps]

/-- No part of a package leads back up. -/
theorem up_not_mem_packageSteps (package : String) : ".." ∉ packageSteps package := by
  intro hup
  obtain ⟨piece, hpiece, heq⟩ := List.mem_map.mp hup
  rw [← String.toList_inj, String.toList_ofList] at heq
  exact dot_not_mem_of_mem_splitOnP (List.mem_of_mem_filter hpiece) (heq ▸ List.mem_cons_self)

/-! ## Files of classes -/

/-- The file of a class is one name, and does not lead back up. -/
theorem fileName_spec {name : String} (hname : Java.isIdentifier name = true) :
    isAbsolute (name ++ ".java") = false ∧ names (name ++ ".java") = [name ++ ".java"] ∧ name ++ ".java" ≠ ".." := by
  have hslash : '/' ∉ (name ++ ".java").toList := by
    intro hmem
    rw [String.toList_append, List.mem_append] at hmem
    rcases hmem with hmem | hmem
    · exact absurd (Java.isIdentifierPart_of_mem hname hmem) (by decide)
    · exact absurd hmem (by decide)
  have hlength : 5 ≤ (name ++ ".java").toList.length := by
    rw [String.toList_append, List.length_append, show ".java".toList.length = 5 by decide]
    omega
  have hleads : leadsOn (name ++ ".java").toList = true := by
    rw [leadsOn, decide_eq_true_iff]
    constructor <;>
    · intro heq
      simp [heq] at hlength
  refine ⟨?_, names_eq_singleton hleads hslash, ?_⟩
  · rw [isAbsolute, decide_eq_false_iff_not]
    exact fun hhead => hslash (List.mem_of_head? hhead)
  · intro heq
    simp [heq] at hlength

/-- A file of a package that does not begin apart lies below the directory of sources, any other below the top. -/
theorem descends_sourcePath (root package : String) {name : String} (hname : Java.isIdentifier name = true) :
    (¬BeginsApart package →
        Descends root (packageSteps package ++ [name ++ ".java"]) (sourcePath root package name))
      ∧ (BeginsApart package →
        Descends "/" (packageSteps package ++ [name ++ ".java"]) (sourcePath root package name)) := by
  obtain ⟨hrelative, hfile, hfileUp⟩ := fileName_spec hname
  have hup : ".." ∉ packageSteps package ++ [name ++ ".java"] := by
    rw [List.mem_append, List.mem_singleton, not_or]
    exact ⟨up_not_mem_packageSteps package, hfileUp.symm⟩
  -- The file lies in the directory of the package, wherever that is.
  have hdirectory : ∀ {directory top : String}, isAbsolute directory = isAbsolute top →
      names directory = names top ++ packageSteps package →
      Descends top (packageSteps package ++ [name ++ ".java"]) (push directory (name ++ ".java")) := by
    intro directory top habsolute hnames
    refine ⟨by rw [isAbsolute_push hrelative, habsolute], ?_, hup⟩
    rw [names_push hrelative, hnames, hfile, List.append_assoc]
  constructor
  · intro hpackage
    have hpath : isAbsolute (packagePath package) = false := by
      rw [Bool.eq_false_iff]
      exact mt (isAbsolute_packagePath_iff package).mp hpackage
    unfold sourcePath
    by_cases hempty : package = ""
    · subst hempty
      exact hdirectory rfl (List.append_nil _).symm
    · rw [if_neg hempty]
      exact hdirectory (isAbsolute_push hpath) (by rw [names_push hpath, names_packagePath])
  · intro hpackage
    have hpath := (isAbsolute_packagePath_iff package).mpr hpackage
    have hempty : package ≠ "" := by
      rintro rfl
      rcases hpackage with hhead | hhead <;> exact absurd hhead (by decide)
    unfold sourcePath
    rw [if_neg hempty, push_of_isAbsolute hpath]
    exact hdirectory hpath (names_packagePath package)

/-- **Where a class is filed.** The file of a class that can be assembled lies below the directory of sources, behind it
the parts of the package and the name of the class, exactly when the package does not begin with a dot or a slash, or
there is nothing above that directory. In a package that begins with one of them, the file lies below the top of the
file system, wherever the directory of sources is. -/
theorem sourcePath_descends_iff {σ : Type} [PrimeSource σ] {model : Metamodel} {options : GenerationOptions}
    {c : ClassModel} {primes primes' : σ} {artifact : JavaClass}
    (h : assemble model options c primes = (.ok artifact, primes')) (root : String) :
    (Descends root (packageSteps (c.packageOr model.package) ++ [c.name ++ ".java"]) (artifact.sourcePath root)
        ↔ ¬BeginsApart (c.packageOr model.package) ∨ Path.IsTop root)
      ∧ (BeginsApart (c.packageOr model.package) →
        Descends "/" (packageSteps (c.packageOr model.package) ++ [c.name ++ ".java"]) (artifact.sourcePath root)) := by
  obtain ⟨parts, -⟩ := exists_parts_of_assemble_eq_ok h
  obtain ⟨-, hname, -⟩ := assemble_identity h
  obtain ⟨hbelow, happart⟩ := descends_sourcePath root (c.packageOr model.package) parts.className
  rw [JavaClass.sourcePath, package_of_assemble_eq_ok h, hname]
  refine ⟨?_, happart⟩
  by_cases hpackage : BeginsApart (c.packageOr model.package)
  · rw [(happart hpackage).isTop_iff]
    simp [hpackage]
  · simp [hpackage, hbelow hpackage]

/-- A class of a package within another lies below the directories of both. -/
theorem sourcePath_descends_orders :
    ∃ (artifact : JavaClass) (primes : PrimeSupply),
      assemble (.empty "shop.orders") .standard (.empty "Order" .bean) (PrimeSupply.fixed .standard)
          = (.ok artifact, primes)
        ∧ artifact.sourcePath "out" = "out/shop/orders/Order.java"
        ∧ packageSteps "shop.orders" = ["shop", "orders"]
        ∧ Descends "out" (packageSteps "shop.orders" ++ ["Order.java"]) (artifact.sourcePath "out") := by
  obtain ⟨artifact, primes, hassemble, hpath⟩ :=
    exists_ok_of_summary
      (assemble (.empty "shop.orders") .standard (.empty "Order" .bean) (PrimeSupply.fixed .standard))
      (·.sourcePath "out") (b := "out/shop/orders/Order.java") (by decide +kernel)
  refine ⟨artifact, primes, hassemble, hpath, by decide +kernel, ?_⟩
  obtain ⟨hiff, -⟩ := sourcePath_descends_iff hassemble "out"
  exact hiff.mpr (Or.inl (by unfold BeginsApart; decide))

/-- A class of a package that begins with a dot is filed outside the directory of sources. -/
theorem not_descends_dotShop :
    ∃ (artifact : JavaClass) (primes : PrimeSupply),
      assemble (.empty ".shop") .standard (.empty "Tag" .bean) (PrimeSupply.fixed .standard) = (.ok artifact, primes)
        ∧ artifact.sourcePath "out" = "/shop/Tag.java"
        ∧ ¬Descends "out" (packageSteps ".shop" ++ ["Tag.java"]) (artifact.sourcePath "out") := by
  obtain ⟨artifact, primes, hassemble, hpath⟩ :=
    exists_ok_of_summary (assemble (.empty ".shop") .standard (.empty "Tag" .bean) (PrimeSupply.fixed .standard))
      (·.sourcePath "out") (b := "/shop/Tag.java") (by decide +kernel)
  refine ⟨artifact, primes, hassemble, hpath, fun hdescends => ?_⟩
  have habsolute := hdescends.isAbsolute_eq
  rw [hpath] at habsolute
  exact absurd habsolute (by decide)

end EntityForge
