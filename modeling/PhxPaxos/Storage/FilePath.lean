import PhxPaxos.Model.FilePath

/-!
# The place of a checkpoint file

The loop that takes a path apart finds its components (`vecDirList_eq`), and the path put together again has the same
ones (`initFilePath_spec`). Whether it starts at the root or at the directory of the process is guessed from the first
character of the first component, so it denotes the same file exactly if the guess is right (`keepsPlace_iff`).
-/

namespace PhxPaxos

open Paths

/-! ## Taking a path apart -/

/-- At a slash the piece being read is put on the list, unless it is empty. -/
theorem dirListStep_slash (v : List Name) (d : Name) : dirListStep (v, d) '/' = (v ++ consName d [], []) := by
  have hstep : dirListStep (v, d) '/' = (if 0 < d.length then v ++ [d] else v, []) := if_pos rfl
  rw [hstep]
  cases d with
  | nil => rw [consName, if_pos rfl, List.append_nil]; rfl
  | cons c d => rfl

/-- The loop adds the components of what it has read. -/
theorem foldl_dirListStep (p : Path) (v : List Name) (d : Name) :
    ((p ++ ['/']).foldl dirListStep (v, d)).1 = v ++ consName (d ++ (splitName p).1) (splitName p).2 := by
  induction p generalizing v d with
  | nil =>
    rw [List.nil_append, List.foldl_cons, List.foldl_nil, dirListStep_slash]
    unfold splitName
    rw [List.append_nil]
  | cons c p ih =>
    rw [List.cons_append, List.foldl_cons]
    unfold splitName
    by_cases hc : c = '/'
    · rw [hc, dirListStep_slash, ih, if_pos rfl, List.nil_append, List.append_nil, List.append_assoc]
      unfold consName
      by_cases hd : d = []
      · rw [if_pos hd, if_pos hd]
        rfl
      · rw [if_neg hd, if_neg hd]
        rfl
    · have hstep : dirListStep (v, d) c = (v, d ++ [c]) := if_neg hc
      rw [hstep, ih, if_neg hc, List.append_assoc]
      rfl

/-- The list of directories is the list of the components. -/
theorem vecDirList_eq (p : Path) : vecDirList p = components p := by
  unfold vecDirList
  rw [List.cons_append, List.foldl_cons]
  have hstep : dirListStep ([], []) '/' = ([], []) := rfl
  rw [hstep, foldl_dirListStep]
  rfl

/-! ## Putting it together -/

/-- The formatted path starts with a slash if there is a component and the first does not start with a dot. -/
def Guess (ns : List Name) : Prop := ∃ n ∈ ns.head?, n.head? ≠ some '.'

/-- Where the formatted path starts. -/
def formatStart (cwd : Location) (ns : List Name) : Location := if (formatHead ns) = [] then cwd else []

theorem formatHead_cases (ns : List Name) : formatHead ns = [] ∨ formatHead ns = ['/'] := by
  unfold formatHead
  split
  · split
    · exact Or.inr rfl
    · exact Or.inl rfl
  · exact Or.inl rfl

theorem formatHead_eq_nil_iff {ns : List Name} (hns : ∀ n ∈ ns, n ≠ [] ∧ '/' ∉ n) : formatHead ns = [] ↔ ¬ Guess ns := by
  unfold Guess
  rcases ns with - | ⟨- | ⟨c, n⟩, ns⟩
  · simp [formatHead]
  · exact absurd rfl (hns [] List.mem_cons_self).1
  · simp [formatHead]

/-- The path through `ns`, as far as the loop has put it together. -/
def formatted (all ns : List Name) : Path := formatHead all ++ slashed ns

theorem components_formatted_append {all ns : List Name} (hns : ∀ n ∈ ns, n ≠ [] ∧ '/' ∉ n) (p : Path) :
    components (formatted all ns ++ p) = ns ++ components p := by
  unfold formatted
  rw [List.append_assoc]
  rcases formatHead_cases all with h | h
  · rw [h, List.nil_append, components_slashed_append hns]
  · rw [h, List.singleton_append, components_slash, components_slashed_append hns]

theorem isAbsolute_of_not_mem {p : Path} (h : '/' ∉ p) : isAbsolute p = false := by
  cases p with
  | nil => rfl
  | cons c p =>
    have hc : c ≠ '/' := fun e => h (e ▸ List.mem_cons_self)
    simp [isAbsolute, hc]

theorem isAbsolute_formatted_append (all : List Name) {ns : List Name} {p : Path} (hns : ∀ n ∈ ns, n ≠ [] ∧ '/' ∉ n) (hp : '/' ∉ p) :
    isAbsolute (formatted all ns ++ p) = true ↔ formatHead all ≠ [] := by
  unfold formatted
  rcases formatHead_cases all with h | h
  · rw [h, List.nil_append]
    refine iff_of_false (fun ht => ?_) (fun hn => hn rfl)
    cases ns with
    | nil =>
      rw [slashed_nil, List.nil_append, isAbsolute_of_not_mem hp] at ht
      exact absurd ht Bool.false_ne_true
    | cons n ns =>
      obtain ⟨hne, hn⟩ := hns n List.mem_cons_self
      obtain ⟨c, n, rfl⟩ := List.exists_cons_of_ne_nil hne
      have hc : c ≠ '/' := fun e => hn (e ▸ List.mem_cons_self)
      simp [isAbsolute, slashed, hc] at ht
  · rw [h]
    exact iff_of_true rfl (List.cons_ne_nil _ _)

/-- What the path through `ns` denotes. -/
theorem locate_formatted (all : List Name) {ns : List Name} {p : Path} (hns : ∀ n ∈ ns, n ≠ [] ∧ '/' ∉ n) (hp : '/' ∉ p)
    (cwd : Location) : locate cwd (formatted all ns ++ p) = walk (formatStart cwd all) (ns ++ components p) := by
  unfold locate start formatStart
  rw [components_formatted_append hns]
  have habs := isAbsolute_formatted_append all hns hp
  by_cases h : formatHead all = []
  · rw [if_pos h, if_neg (fun ht => habs.mp ht h)]
  · rw [if_neg h, if_pos (habs.mpr h)]

/-! ## Directories on the way -/

/-- With a directory all above it are there. -/
theorem Tree.isDir_of_append {t : Tree} {d ns : Location} (h : t.isDir (d ++ ns) = true) : t.isDir d = true := by
  induction ns using List.reverseRecOn with
  | nil => rwa [List.append_nil] at h
  | append_singleton ns n ih =>
    rw [← List.append_assoc] at h
    exact ih (t.parent _ _ h)

/-- Every directory that the receiver takes for created is there. -/
def FileReceiver.Recorded (r : FileReceiver) (fs : FileSystem) : Prop := ∀ p ∈ r.mapHasInitDir, fs.access p = true

/-- Directories are only added, and nothing else changes. -/
structure FileSystem.Grown (fs fs' : FileSystem) (d : Location → Prop) : Prop where
  cwd : fs'.cwd = fs.cwd
  files : fs'.files = fs.files
  mayCreate : fs'.mayCreate = fs.mayCreate
  isDir : ∀ l, fs'.tree.isDir l = true ↔ fs.tree.isDir l = true ∨ d l

theorem FileSystem.Grown.refl {fs : FileSystem} {d : Location → Prop} (h : ∀ l, d l → fs.tree.isDir l = true) :
    fs.Grown fs d := ⟨rfl, rfl, rfl, fun l => ⟨Or.inl, fun hl => hl.elim id (h l)⟩⟩

theorem FileSystem.Grown.trans {a b c : FileSystem} {d e : Location → Prop} (h : a.Grown b d) (h' : b.Grown c e) :
    a.Grown c fun l => d l ∨ e l := by
  refine ⟨h'.cwd.trans h.cwd, h'.files.trans h.files, h'.mayCreate.trans h.mayCreate, fun l => ?_⟩
  rw [h'.isDir, h.isDir, or_assoc]

theorem FileSystem.Grown.congr {fs fs' : FileSystem} {d e : Location → Prop} (h : fs.Grown fs' d)
    (hde : ∀ l, fs.tree.isDir l = true ∨ d l ↔ fs.tree.isDir l = true ∨ e l) : fs.Grown fs' e :=
  ⟨h.cwd, h.files, h.mayCreate, fun l => (h.isDir l).trans (hde l)⟩

theorem FileReceiver.Recorded.grown {r : FileReceiver} {fs fs' : FileSystem} {d : Location → Prop} (hr : r.Recorded fs)
    (h : fs.Grown fs' d) : r.Recorded fs' := by
  intro p hp
  unfold FileSystem.access
  rw [h.cwd, h.isDir]
  exact Or.inl (hr p hp)

/-- A directory that was made ready is there afterwards, and it is the only new one. -/
theorem createDir_spec {fs fs' : FileSystem} {p : Path} (h : createDir fs p = (0, fs')) :
    fs.Grown fs' fun l => l = locate fs.cwd p := by
  unfold createDir at h
  split at h
  · rename_i hacc
    obtain ⟨-, rfl⟩ := Prod.mk.inj h
    exact FileSystem.Grown.refl fun l hl => hl ▸ hacc
  · unfold FileSystem.mkdir FileSystem.mkdirAt at h
    split at h
    · cases h
    · rename_i n hn
      split at h
      · split at h
        · obtain ⟨-, rfl⟩ := Prod.mk.inj h
          refine ⟨rfl, rfl, rfl, fun l => ?_⟩
          have hl := List.dropLast_append_getLast? n hn
          show (_ || _) = true ↔ _
          rw [hl, Bool.or_eq_true, decide_eq_true_eq]
        · cases h
      · cases h

theorem createDir_failed {fs fs' : FileSystem} {p : Path} {ret : Int} (h : createDir fs p = (ret, fs')) (hret : ret ≠ 0) :
    fs' = fs := by
  unfold createDir at h
  split at h
  · exact absurd (Prod.mk.inj h).1.symm hret
  · unfold FileSystem.mkdir FileSystem.mkdirAt at h
    split at h
    · exact (Prod.mk.inj h).2.symm
    · split at h
      · split at h
        · exact absurd (Prod.mk.inj h).1.symm hret
        · exact (Prod.mk.inj h).2.symm
      · exact (Prod.mk.inj h).2.symm

/-- With everything allowed a directory below one that is there is made ready. -/
theorem createDir_ok {fs : FileSystem} (hmay : ∀ l, fs.mayCreate l = true) {p : Path} {l : Location} {n : Name}
    (hp : locate fs.cwd p = move l n) (hdir : fs.tree.isDir l = true) : (createDir fs p).1 = 0 := by
  unfold createDir
  split
  · rfl
  · rename_i hacc
    unfold FileSystem.access at hacc
    rw [hp] at hacc
    unfold FileSystem.mkdir
    rw [hp]
    unfold FileSystem.mkdirAt
    unfold move at hacc ⊢
    -- what is not there yet is neither the directory itself nor the one above it
    by_cases hdot : n = dot
    · rw [if_pos hdot] at hacc
      exact absurd hdir hacc
    · rw [if_neg hdot] at hacc ⊢
      by_cases hup : n = dotDot
      · rw [if_pos hup] at hacc
        refine absurd ?_ hacc
        rcases List.eq_nil_or_concat l with rfl | ⟨m, k, rfl⟩
        · exact hdir
        · rw [List.concat_eq_append, List.dropLast_concat]
          exact Tree.isDir_of_append (List.concat_eq_append ▸ hdir)
      · rw [if_neg hup]
        simp [hdir, hmay]

section Loop

variable {all : List Name} {cwd : Location}

theorem formatted_snoc (all ms : List Name) (n : Name) : formatted all ms ++ n ++ ['/'] = formatted all (ms ++ [n]) := by
  unfold formatted
  rw [slashed_append, slashed_singleton, List.append_assoc, List.append_assoc]

theorem locate_formatted_snoc (all : List Name) {ms ns : List Name} {n : Name} (hns : ∀ m ∈ ms ++ n :: ns, m ≠ [] ∧ '/' ∉ m)
    (cwd : Location) : locate cwd (formatted all (ms ++ [n])) = walk (formatStart cwd all) (ms ++ [n]) := by
  rw [List.append_cons] at hns
  have hms : ∀ m ∈ ms ++ [n], m ≠ [] ∧ '/' ∉ m := fun m hm => hns m (List.mem_append_left ns hm)
  have h := locate_formatted all hms List.not_mem_nil cwd
  rwa [List.append_nil, components_nil, List.append_nil] at h

/-- The directories that the loop creates are those on the way, and the path that it ends with leads on from there. -/
theorem formatLoop_spec {ns : List Name} : ∀ {ms : List Name} {r r' : FileReceiver} {fs fs' : FileSystem} {fmt : Path},
    fs.cwd = cwd → r.Recorded fs → (∀ n ∈ ms ++ ns, n ≠ [] ∧ '/' ∉ n) →
    fs.tree.isDir (walk (formatStart cwd all) ms) = true →
    formatLoop r fs (formatted all ms) ns = (0, fmt, r', fs') →
    locate cwd fmt = walk (formatStart cwd all) (ms ++ ns) ∧ r'.Recorded fs' ∧
      fs.Grown fs' (OnWay (walk (formatStart cwd all) ms) ns) := by
  induction ns with
  | nil =>
    rintro ms r r' fs fs' fmt hcwd hr hns hdir h
    obtain ⟨rfl, rfl, rfl⟩ : formatted all ms = fmt ∧ r = r' ∧ fs = fs' := by simpa [formatLoop] using h
    have hms : ∀ n ∈ ms, n ≠ [] ∧ '/' ∉ n := fun n hn => hns n (List.mem_append_left _ hn)
    refine ⟨?_, hr, FileSystem.Grown.refl fun l hl => absurd hl not_onWay_nil⟩
    have hloc := locate_formatted all hms List.not_mem_nil cwd
    rwa [List.append_nil, components_nil] at hloc
  | cons n ns ih =>
    rintro ms r r' fs fs' fmt hcwd hr hns hdir h
    have hms : ∀ m ∈ ms, m ≠ [] ∧ '/' ∉ m := fun m hm => hns m (List.mem_append_left _ hm)
    have hn : n ≠ [] ∧ '/' ∉ n := hns n (List.mem_append_right _ List.mem_cons_self)
    cases ns with
    | nil =>
      -- the last piece is the file
      obtain ⟨rfl, rfl, rfl⟩ : formatted all ms ++ n = fmt ∧ r = r' ∧ fs = fs' := by simpa [formatLoop] using h
      refine ⟨?_, hr, FileSystem.Grown.refl fun l hl => ?_⟩
      · rw [locate_formatted all hms hn.2, components_name hn.2 hn.1]
      · rcases onWay_cons.mp hl with rfl | hl
        · exact hdir
        · exact absurd hl not_onWay_nil
    | cons m ns =>
      have hloc := locate_formatted_snoc all hns cwd
      have hmove : walk (formatStart cwd all) (ms ++ [n]) = move (walk (formatStart cwd all) ms) n := walk_append _ _ _
      have happ : ms ++ n :: m :: ns = ms ++ [n] ++ m :: ns := List.append_cons ms n (m :: ns)
      rw [happ] at hns ⊢
      have hway : ∀ l, OnWay (walk (formatStart cwd all) ms) (n :: m :: ns) l ↔
          l = walk (formatStart cwd all) ms ∨ OnWay (walk (formatStart cwd all) (ms ++ [n])) (m :: ns) l := by
        intro l
        rw [onWay_cons, hmove]
      unfold formatLoop at h
      rw [formatted_snoc] at h
      dsimp only at h
      split at h
      · -- taken for created
        rename_i hrec
        have hdir' : fs.tree.isDir (walk (formatStart cwd all) (ms ++ [n])) = true := by
          have hacc := hr _ hrec
          unfold FileSystem.access at hacc
          rwa [hcwd, hloc] at hacc
        obtain ⟨hfmt, hr', hgrown⟩ := ih hcwd hr hns hdir' h
        refine ⟨hfmt, hr', hgrown.congr fun l => ?_⟩
        rw [hway]
        constructor
        · exact fun hl => hl.imp_right Or.inr
        · rintro (hl | rfl | hl)
          · exact Or.inl hl
          · exact Or.inl hdir
          · exact Or.inr hl
      · generalize hc : createDir fs (formatted all (ms ++ [n])) = c at h
        obtain ⟨ret, fs₁⟩ := c
        dsimp only at h
        split at h
        · rename_i hret
          exact absurd (Prod.mk.inj h).1 hret
        · rename_i hret
          rw [not_not] at hret
          rw [hret] at hc
          have hcreate := createDir_spec hc
          rw [hcwd, hloc] at hcreate
          have hcwd' : fs₁.cwd = cwd := hcreate.cwd.trans hcwd
          have hdir' : fs₁.tree.isDir (walk (formatStart cwd all) (ms ++ [n])) = true := (hcreate.isDir _).mpr (Or.inr rfl)
          have hr₁ : FileReceiver.Recorded { r with mapHasInitDir := formatted all (ms ++ [n]) :: r.mapHasInitDir } fs₁ := by
            intro p hp
            rcases List.mem_cons.mp hp with rfl | hp
            · unfold FileSystem.access
              rwa [hcwd', hloc]
            · exact hr.grown hcreate p hp
          obtain ⟨hfmt, hr', hgrown⟩ := ih hcwd' hr₁ hns hdir' h
          refine ⟨hfmt, hr', (hcreate.trans hgrown).congr fun l => ?_⟩
          rw [hway]
          constructor
          · rintro (hl | rfl | hl)
            · exact Or.inl hl
            · exact Or.inr (Or.inr (OnWay.start (List.cons_ne_nil m ns)))
            · exact Or.inr (Or.inr hl)
          · rintro (hl | rfl | hl)
            · exact Or.inl hl
            · exact Or.inl hdir
            · exact Or.inr (Or.inr hl)

theorem createDir_frame (fs : FileSystem) (p : Path) :
    (createDir fs p).2.files = fs.files ∧ (createDir fs p).2.cwd = fs.cwd := by
  generalize hc : createDir fs p = c
  obtain ⟨ret, fs'⟩ := c
  by_cases hret : ret = 0
  · subst hret
    have hgrown := createDir_spec hc
    exact ⟨hgrown.files, hgrown.cwd⟩
  · rw [createDir_failed hc hret]
    exact ⟨rfl, rfl⟩

/-- Files are left alone. -/
theorem formatLoop_frame {ns : List Name} : ∀ {fmt : Path} {r : FileReceiver} {fs : FileSystem},
    (formatLoop r fs fmt ns).2.2.2.files = fs.files ∧ (formatLoop r fs fmt ns).2.2.2.cwd = fs.cwd := by
  induction ns with
  | nil => exact ⟨rfl, rfl⟩
  | cons n ns ih =>
    intro fmt r fs
    cases ns with
    | nil => exact ⟨rfl, rfl⟩
    | cons m ns =>
      have hcreate := createDir_frame fs (fmt ++ n ++ ['/'])
      unfold formatLoop
      dsimp only
      split
      · exact ih
      · split
        · exact hcreate
        · exact ⟨ih.1.trans hcreate.1, ih.2.trans hcreate.2⟩

/-- Whatever comes of it, the new directories are on the way. -/
theorem formatLoop_new {ns : List Name} : ∀ {ms : List Name} {r : FileReceiver} {fs : FileSystem},
    fs.cwd = cwd → (∀ n ∈ ms ++ ns, n ≠ [] ∧ '/' ∉ n) →
    ∀ l, (formatLoop r fs (formatted all ms) ns).2.2.2.tree.isDir l = true →
      fs.tree.isDir l = true ∨ OnWay (walk (formatStart cwd all) ms) ns l := by
  induction ns with
  | nil => exact fun _ _ l hl => Or.inl hl
  | cons n ns ih =>
    intro ms r fs hcwd hns l hl
    cases ns with
    | nil => exact Or.inl hl
    | cons m ns =>
      have hloc := locate_formatted_snoc all hns cwd
      have hmove : walk (formatStart cwd all) (ms ++ [n]) = move (walk (formatStart cwd all) ms) n := walk_append _ _ _
      rw [List.append_cons ms n (m :: ns)] at hns
      rw [onWay_cons, ← hmove]
      unfold formatLoop at hl
      rw [formatted_snoc] at hl
      dsimp only at hl
      split at hl
      · exact (ih hcwd hns l hl).imp_right Or.inr
      · generalize hc : createDir fs (formatted all (ms ++ [n])) = c at hl
        obtain ⟨ret, fs₁⟩ := c
        dsimp only at hl
        split at hl
        · rename_i hret
          rw [createDir_failed hc hret] at hl
          exact Or.inl hl
        · rename_i hret
          rw [not_not] at hret
          rw [hret] at hc
          have hcreate := createDir_spec hc
          rw [hcwd, hloc] at hcreate
          rcases ih (hcreate.cwd.trans hcwd) hns l hl with hl | hl
          · rcases (hcreate.isDir l).mp hl with hl | rfl
            · exact Or.inl hl
            · exact Or.inr (Or.inr (OnWay.start (List.cons_ne_nil m ns)))
          · exact Or.inr (Or.inr hl)

/-- With everything allowed the loop comes to its end. -/
theorem formatLoop_ok {ns : List Name} : ∀ {ms : List Name} {r : FileReceiver} {fs : FileSystem},
    fs.cwd = cwd → (∀ l, fs.mayCreate l = true) → r.Recorded fs → (∀ n ∈ ms ++ ns, n ≠ [] ∧ '/' ∉ n) →
    fs.tree.isDir (walk (formatStart cwd all) ms) = true → (formatLoop r fs (formatted all ms) ns).1 = 0 := by
  induction ns with
  | nil => exact fun _ _ _ _ _ => rfl
  | cons n ns ih =>
    intro ms r fs hcwd hmay hr hns hdir
    cases ns with
    | nil => rfl
    | cons m ns =>
      have hloc := locate_formatted_snoc all hns cwd
      have hmove : walk (formatStart cwd all) (ms ++ [n]) = move (walk (formatStart cwd all) ms) n := walk_append _ _ _
      rw [List.append_cons ms n (m :: ns)] at hns
      unfold formatLoop
      rw [formatted_snoc]
      dsimp only
      split
      · rename_i hrec
        have hacc := hr _ hrec
        unfold FileSystem.access at hacc
        rw [hcwd, hloc] at hacc
        exact ih hcwd hmay hr hns hacc
      · have hret : (createDir fs (formatted all (ms ++ [n]))).1 = 0 := createDir_ok hmay (by rw [hcwd, hloc, hmove]) hdir
        generalize hc : createDir fs (formatted all (ms ++ [n])) = c at hret
        obtain ⟨ret, fs₁⟩ := c
        dsimp only at hret ⊢
        rw [if_neg (not_not.mpr hret)]
        subst hret
        have hcreate := createDir_spec hc
        rw [hcwd, hloc] at hcreate
        have hdir' : fs₁.tree.isDir (walk (formatStart cwd all) (ms ++ [n])) = true := (hcreate.isDir _).mpr (Or.inr rfl)
        refine ih (hcreate.cwd.trans hcwd) (fun l => hcreate.mayCreate ▸ hmay l) ?_ hns hdir'
        intro p hp
        rcases List.mem_cons.mp hp with rfl | hp
        · unfold FileSystem.access
          rwa [hcreate.cwd.trans hcwd, hloc]
        · exact hr.grown hcreate p hp

end Loop

theorem isDir_formatStart (fs : FileSystem) (all : List Name) :
    fs.tree.isDir (walk (formatStart fs.cwd all) []) = true := by
  rw [walk_nil]
  unfold formatStart
  split
  · exact fs.cwd_isDir
  · exact fs.tree.root

theorem initFilePath_eq (r : FileReceiver) (fs : FileSystem) (p : Path) :
    initFilePath r fs p = formatLoop r fs (formatted (components p) []) (components p) := by
  unfold initFilePath formatted
  rw [vecDirList_eq, slashed_nil, List.append_nil]

/-- **The path is put together from the components of the given one**, starting where it is guessed to start, and the new
directories are those that it passes. -/
theorem initFilePath_spec {r r' : FileReceiver} {fs fs' : FileSystem} {p fmt : Path} (hr : r.Recorded fs)
    (h : initFilePath r fs p = (0, fmt, r', fs')) :
    locate fs.cwd fmt = walk (formatStart fs.cwd (components p)) (components p) ∧ r'.Recorded fs' ∧
      fs.Grown fs' (OnWay (formatStart fs.cwd (components p)) (components p)) := by
  rw [initFilePath_eq] at h
  exact formatLoop_spec rfl hr (fun n hn => mem_components hn) (isDir_formatStart fs (components p)) h

/-- Whatever comes of it, the new directories are those that the path passes. -/
theorem initFilePath_new {r r' : FileReceiver} {fs fs' : FileSystem} {p fmt : Path} {ret : Int}
    (h : initFilePath r fs p = (ret, fmt, r', fs')) {l : Location} (hl : fs'.tree.isDir l = true) :
    fs.tree.isDir l = true ∨ OnWay (formatStart fs.cwd (components p)) (components p) l := by
  rw [initFilePath_eq] at h
  have hns : ∀ n ∈ [] ++ components p, n ≠ [] ∧ '/' ∉ n := fun n hn => mem_components hn
  refine formatLoop_new (r := r) rfl hns l ?_
  rw [h]
  exact hl

theorem initFilePath_frame (r : FileReceiver) (fs : FileSystem) (p : Path) :
    (initFilePath r fs p).2.2.2.files = fs.files ∧ (initFilePath r fs p).2.2.2.cwd = fs.cwd := formatLoop_frame

/-- With everything allowed it succeeds. -/
theorem initFilePath_ok {r : FileReceiver} {fs : FileSystem} (hmay : ∀ l, fs.mayCreate l = true) (hr : r.Recorded fs)
    (p : Path) : ∃ fmt r' fs', initFilePath r fs p = (0, fmt, r', fs') := by
  have hns : ∀ n ∈ [] ++ components p, n ≠ [] ∧ '/' ∉ n := fun n hn => mem_components hn
  have hret := formatLoop_ok rfl hmay hr hns (isDir_formatStart fs (components p))
  rw [← initFilePath_eq] at hret
  exact ⟨_, _, _, Prod.ext hret rfl⟩

/-! ## The place of the file -/

/-- The path starts with a slash exactly if its first component does not start with a dot. -/
def Guessed (p : Path) : Prop := isAbsolute p = true ↔ Guess (components p)

theorem Guessed.formatStart_eq {p : Path} (h : Guessed p) (cwd : Location) :
    formatStart cwd (components p) = start cwd p := by
  have hiff := formatHead_eq_nil_iff fun n hn => mem_components (p := p) hn
  unfold formatStart start
  by_cases habs : isAbsolute p = true
  · rw [if_neg fun hnil => hiff.mp hnil (h.mp habs), if_pos habs]
  · rw [if_pos (hiff.mpr fun hg => habs (h.mpr hg)), if_neg habs]

/-- A wrong guess shows in a directory that is deep enough. -/
theorem guessed_of_walk_eq {p : Path} {cwd : Location} (hcwd : (components p).length < cwd.length)
    (h : walk (formatStart cwd (components p)) (components p) = locate cwd p) : Guessed p := by
  have hiff := formatHead_eq_nil_iff fun n hn => mem_components (p := p) hn
  have hne : walk [] (components p) ≠ walk cwd (components p) := fun e => by
    have hlt : (walk [] (components p)).length < (walk cwd (components p)).length :=
      walk_deeper (by rw [List.length_nil, Nat.zero_add]; exact hcwd)
    rw [e] at hlt
    exact Nat.lt_irrefl _ hlt
  unfold locate formatStart start at h
  unfold Guessed
  by_cases habs : isAbsolute p = true
  · rw [if_pos habs] at h
    refine iff_of_true habs (not_not.mp fun hg => ?_)
    rw [if_pos (hiff.mpr hg)] at h
    exact hne h.symm
  · rw [if_neg habs] at h
    refine iff_of_false habs fun hg => ?_
    rw [if_neg fun hnil => hiff.mp hnil hg] at h
    exact hne h

/-- The places that are there because the way to `tmpDir` is. -/
def Given (cwd : Location) (tmpDir : Path) (d : Location) : Prop :=
  d <+: cwd ∨ ∃ e, OnWay (start cwd tmpDir) (components tmpDir) e ∧ d <+: e

/-- The file path leads below `tmpDir`, and passes nothing but places above the file and places that are given. -/
def Straight (cwd : Location) (tmpDir filePath : Path) : Prop :=
  Ancestor (locate cwd tmpDir) (locate cwd (checkpointFilePath tmpDir filePath)) ∧
    ∀ d, OnWay (locate cwd tmpDir) (components filePath) d →
      Ancestor d (locate cwd (checkpointFilePath tmpDir filePath)) ∨ Given cwd tmpDir d

/-- In every run, started when the directory of `tmpDir` is there, as it is once the receiver has cleared it: the
formatted path denotes the file that was asked for, the new directories lie above it, and it lies below `tmpDir`. -/
def KeepsPlace (tmpDir filePath : Path) : Prop :=
  ∀ (r r' : FileReceiver) (fs fs' : FileSystem) (fmt : Path) (ret : Int), r.Recorded fs →
    (∀ d, OnWay (start fs.cwd tmpDir) (components tmpDir) d → fs.tree.isDir d = true) →
    initFilePath r fs (checkpointFilePath tmpDir filePath) = (ret, fmt, r', fs') →
    (ret = 0 → locate fs.cwd fmt = locate fs.cwd (checkpointFilePath tmpDir filePath) ∧
      Ancestor (locate fs.cwd tmpDir) (locate fs.cwd fmt)) ∧
    ∀ d, fs'.tree.isDir d = true →
      fs.tree.isDir d = true ∨ Ancestor d (locate fs.cwd (checkpointFilePath tmpDir filePath))

/-- A path of names for a file: no `..`, and a last component other than `.`. -/
def NamesFile (p : Path) : Prop := components p ≠ [] ∧ dotDot ∉ components p ∧ (components p).getLast? ≠ some dot

section Place

variable {tmpDir filePath : Path}

theorem components_checkpointFilePath (tmpDir filePath : Path) :
    components (checkpointFilePath tmpDir filePath) = components tmpDir ++ components filePath :=
  components_append_slash tmpDir filePath

theorem start_checkpointFilePath (h : tmpDir ≠ []) (cwd : Location) :
    start cwd (checkpointFilePath tmpDir filePath) = start cwd tmpDir := by
  obtain ⟨c, p, rfl⟩ := List.exists_cons_of_ne_nil h
  rfl

theorem locate_checkpointFilePath (h : tmpDir ≠ []) (cwd : Location) :
    locate cwd (checkpointFilePath tmpDir filePath) = walk (locate cwd tmpDir) (components filePath) := by
  unfold locate
  rw [start_checkpointFilePath h, components_checkpointFilePath, walk_append]

/-- Names lead straight to the file. -/
theorem straight_of_namesFile (h : tmpDir ≠ []) (hf : NamesFile filePath) (cwd : Location) :
    Straight cwd tmpDir filePath := by
  obtain ⟨hne, hup, hlast⟩ := hf
  unfold Straight
  rw [locate_checkpointFilePath h]
  exact ⟨(OnWay.start hne).ancestor hup hlast, fun d hd => Or.inl (hd.ancestor hup hlast)⟩

/-- A right guess and a straight way are enough. -/
theorem keepsPlace_of_guessed (h : tmpDir ≠ []) (hg : Guessed (checkpointFilePath tmpDir filePath))
    (hs : ∀ cwd, Straight cwd tmpDir filePath) : KeepsPlace tmpDir filePath := by
  intro r r' fs fs' fmt ret hr hway hinit
  obtain ⟨hbelow, hpass⟩ := hs fs.cwd
  have hstart := hg.formatStart_eq fs.cwd
  constructor
  · rintro rfl
    obtain ⟨hfmt, -, -⟩ := initFilePath_spec hr hinit
    rw [hstart] at hfmt
    have hloc : locate fs.cwd fmt = locate fs.cwd (checkpointFilePath tmpDir filePath) := hfmt
    exact ⟨hloc, hloc ▸ hbelow⟩
  · intro d hd
    rcases initFilePath_new hinit hd with hd | hd
    · exact Or.inl hd
    · rw [hstart, start_checkpointFilePath h, components_checkpointFilePath] at hd
      rcases onWay_append.mp hd with hd | hd
      · exact Or.inl (hway d hd)
      · rcases hpass d hd with hd | ⟨ns, hcwd⟩ | ⟨e, he, ns, hde⟩
        · exact Or.inr hd
        · exact Or.inl (Tree.isDir_of_append (hcwd ▸ fs.cwd_isDir))
        · exact Or.inl (Tree.isDir_of_append (hde ▸ hway e he))

/-- A tree in which everything is a directory. -/
def Tree.full : Tree := ⟨fun _ => true, rfl, fun _ _ _ => rfl⟩

/-- A wrong guess leads astray where the process runs deep enough. -/
theorem KeepsPlace.guessed (hk : KeepsPlace tmpDir filePath) : Guessed (checkpointFilePath tmpDir filePath) := by
  let cwd : Location := List.replicate ((components (checkpointFilePath tmpDir filePath)).length + 1) ['x']
  let fs : FileSystem := ⟨cwd, Tree.full, rfl, fun _ => true, fun _ => none, fun _ => true, fun _ => none⟩
  have hr : FileReceiver.Recorded {} fs := fun p hp => absurd hp List.not_mem_nil
  obtain ⟨fmt, r', fs', hinit⟩ := initFilePath_ok (fun _ => rfl) hr (checkpointFilePath tmpDir filePath)
  obtain ⟨hfmt, -, -⟩ := initFilePath_spec hr hinit
  obtain ⟨hloc, -⟩ := (hk {} r' fs fs' fmt 0 hr (fun _ _ => rfl) hinit).1 rfl
  have hdeep : (components (checkpointFilePath tmpDir filePath)).length < cwd.length :=
    (Nat.lt_succ_self _).trans_eq List.length_replicate.symm
  exact guessed_of_walk_eq hdeep (hfmt.symm.trans hloc)

/-- A way that is not straight leaves a directory behind where nothing more than is given is there. -/
theorem KeepsPlace.straight (h : tmpDir ≠ []) (hk : KeepsPlace tmpDir filePath) (cwd : Location) :
    Straight cwd tmpDir filePath := by
  classical
  have hclosed : ∀ l n, Given cwd tmpDir (l ++ [n]) → Given cwd tmpDir l := by
    rintro l n (hl | ⟨e, he, hl⟩)
    · exact Or.inl ((List.prefix_append l [n]).trans hl)
    · exact Or.inr ⟨e, he, (List.prefix_append l [n]).trans hl⟩
  let t : Tree := {
    isDir := fun d => decide (Given cwd tmpDir d)
    root := decide_eq_true (Or.inl List.nil_prefix)
    parent := fun l n hl => decide_eq_true (hclosed l n (of_decide_eq_true hl)) }
  have hcwd : t.isDir cwd = true := decide_eq_true (Or.inl (List.prefix_refl cwd))
  let fs : FileSystem := ⟨cwd, t, hcwd, fun _ => true, fun _ => none, fun _ => true, fun _ => none⟩
  have hr : FileReceiver.Recorded {} fs := fun p hp => absurd hp List.not_mem_nil
  have hway : ∀ d, OnWay (start fs.cwd tmpDir) (components tmpDir) d → fs.tree.isDir d = true :=
    fun d hd => decide_eq_true (Or.inr ⟨d, hd, List.prefix_refl d⟩)
  obtain ⟨fmt, r', fs', hinit⟩ := initFilePath_ok (fun _ => rfl) hr (checkpointFilePath tmpDir filePath)
  obtain ⟨-, -, hgrown⟩ := initFilePath_spec hr hinit
  obtain ⟨hfile, hnew⟩ := hk {} r' fs fs' fmt 0 hr hway hinit
  obtain ⟨hloc, hbelow⟩ := hfile rfl
  refine ⟨hloc ▸ hbelow, fun d hd => ?_⟩
  have hpass : OnWay (formatStart fs.cwd (components (checkpointFilePath tmpDir filePath)))
      (components (checkpointFilePath tmpDir filePath)) d := by
    rw [hk.guessed.formatStart_eq, start_checkpointFilePath h, components_checkpointFilePath]
    exact onWay_append.mpr (Or.inr hd)
  rcases hnew d ((hgrown.isDir d).mpr (Or.inr hpass)) with hd | hd
  · exact Or.inr (of_decide_eq_true hd)
  · exact Or.inl hd

/-- What is written to is opened below `tmpDir`. -/
theorem KeepsPlace.receiveFile {logStoragePath : Path} {msg : FileMsg} {r : FileReceiver} {fs : FileSystem}
    (hk : KeepsPlace (getTmpDirPath logStoragePath msg.smid) msg.filePath) (hr : r.Recorded fs)
    (hway : ∀ d, OnWay (start fs.cwd (getTmpDirPath logStoragePath msg.smid))
      (components (getTmpDirPath logStoragePath msg.smid)) d → fs.tree.isDir d = true) {l : Location}
    (hl : (receiveFile logStoragePath msg r fs).2.2.files l ≠ fs.files l) :
    Ancestor (locate fs.cwd (getTmpDirPath logStoragePath msg.smid)) l := by
  unfold PhxPaxos.receiveFile at hl
  generalize hinit : initFilePath r fs (checkpointFilePath (getTmpDirPath logStoragePath msg.smid) msg.filePath) = s at hl
  obtain ⟨ret, fmt, r', fs'⟩ := s
  have hfiles : fs'.files = fs.files ∧ fs'.cwd = fs.cwd := by
    have h := initFilePath_frame r fs (checkpointFilePath (getTmpDirPath logStoragePath msg.smid) msg.filePath)
    rwa [hinit] at h
  have hplace : ret = 0 → Ancestor (locate fs.cwd (getTmpDirPath logStoragePath msg.smid)) (locate fs'.cwd fmt) := by
    intro hret
    rw [hfiles.2]
    exact ((hk r r' fs fs' fmt ret hr hway hinit).1 hret).2
  -- nothing but the file that the formatted path denotes is written to
  have hupdate : ∀ c, Function.update fs'.files (locate fs'.cwd fmt) c l ≠ fs.files l → l = locate fs'.cwd fmt := by
    intro c hc
    by_contra hne
    rw [Function.update_of_ne hne, hfiles.1] at hc
    exact hc rfl
  dsimp only at hl
  split at hl
  · exact absurd rfl hl
  split at hl
  · exact absurd rfl hl
  split at hl
  · exact absurd rfl hl
  split at hl
  · exact absurd (congrFun hfiles.1 l) hl
  rename_i hret
  have hbelow := hplace (not_not.mp hret)
  split at hl
  · exact absurd (congrFun hfiles.1 l) hl
  split at hl
  · exact hupdate _ hl ▸ hbelow
  split at hl
  · exact hupdate _ hl ▸ hbelow
  · exact hupdate _ hl ▸ hbelow

/-- **A checkpoint file is put in its place exactly if the start of its path is guessed** and the path leads straight to
it; paths of names always do. -/
theorem keepsPlace_iff (h : tmpDir ≠ []) :
    (KeepsPlace tmpDir filePath ↔
      Guessed (checkpointFilePath tmpDir filePath) ∧ ∀ cwd, Straight cwd tmpDir filePath) ∧
    (NamesFile filePath → (KeepsPlace tmpDir filePath ↔ Guessed (checkpointFilePath tmpDir filePath))) := by
  have hiff : KeepsPlace tmpDir filePath ↔
      Guessed (checkpointFilePath tmpDir filePath) ∧ ∀ cwd, Straight cwd tmpDir filePath :=
    ⟨fun hk => ⟨hk.guessed, hk.straight h⟩, fun hg => keepsPlace_of_guessed h hg.1 hg.2⟩
  exact ⟨hiff, fun hf => ⟨fun hk => hk.guessed, fun hg => hiff.mpr ⟨hg, straight_of_namesFile h hf⟩⟩⟩

end Place

/-- With a log path that starts with a dot the file is put in its place. -/
theorem keepsPlace_iff_dotted : KeepsPlace (getTmpDirPath ['.', '/', 'd', '/', 'g'] 1) ['a', '/', '/', 'f'] :=
  ((keepsPlace_iff (by decide)).2 ⟨by decide, by decide, by decide⟩).mpr
    ⟨fun h => absurd h (by decide), fun ⟨n, hn, hdot⟩ => absurd (Option.some.inj hn ▸ hdot) (by decide)⟩

/-! A process in `/s` with its log in `d/g`. -/

/-- The directories `/s/d/g`, and what lies above. -/
def Tree.logs : Tree where
  isDir d := d <+: [['s'], ['d'], ['g']]
  root := rfl
  parent l n h := decide_eq_true ((List.prefix_append l [n]).trans (of_decide_eq_true h))

def FileSystem.logs : FileSystem where
  cwd := [['s']]
  tree := Tree.logs
  cwd_isDir := by decide

/-- **A relative log path leads to the root**: the file goes to `/d/g/cp_tmp_1/f`, not below `/s`, if the path of the log
does not start with a dot; and a first component that starts with a dot takes an absolute path for a relative one. -/
theorem undotted_misplaced :
    (initFilePath {} FileSystem.logs (checkpointFilePath (getTmpDirPath ['d', '/', 'g'] 1) ['f'])).1 = 0 ∧
      locate FileSystem.logs.cwd
          (initFilePath {} FileSystem.logs (checkpointFilePath (getTmpDirPath ['d', '/', 'g'] 1) ['f'])).2.1 =
        [['d'], ['g'], ['c', 'p', '_', 't', 'm', 'p', '_', '1'], ['f']] ∧
      locate FileSystem.logs.cwd (checkpointFilePath (getTmpDirPath ['d', '/', 'g'] 1) ['f']) =
        [['s'], ['d'], ['g'], ['c', 'p', '_', 't', 'm', 'p', '_', '1'], ['f']] ∧
      ¬ KeepsPlace (getTmpDirPath ['d', '/', 'g'] 1) ['f'] ∧
      ¬ KeepsPlace (getTmpDirPath ['/', '.', 'd', '/', 'g'] 1) ['f'] := by
  refine ⟨by decide, by decide, by decide, fun hk => ?_, fun hk => ?_⟩
  · have habs := hk.guessed.mpr ⟨['d'], rfl, by decide⟩
    exact absurd habs (by decide)
  · obtain ⟨n, hn, hdot⟩ := hk.guessed.mp (by decide)
    obtain rfl : ['.', 'd'] = n := Option.some.inj hn
    exact hdot rfl

end PhxPaxos
