import CpcJudge.Lib.Disk
import CpcJudge.Problems.Init
import Mathlib.Data.Fintype.Defs

/-!
# The files of a problem

The zip file, the generator and the interactor of a problem are stored in one directory under their own names. A save
writes the new ones over whatever has their names, and then deletes the zip file and the interactor that are replaced,
also by name. A name that goes from one field to another in a save is deleted after it was written.
-/

namespace CpcJudge.Problems

/-! ## The form -/

/-- The fields of `ProblemData` that are files. -/
inductive FileField where
  | zipfile
  | generator
  | interactor
  deriving DecidableEq, Repr

/-- The order in which they are saved. -/
def fileFields : List FileField := [.zipfile, .generator, .interactor]

theorem mem_fileFields (field : FileField) : field ∈ fileFields := by cases field <;> simp [fileFields]

instance : Fintype FileField := ⟨⟨fileFields, by decide⟩, mem_fileFields⟩

/-- `REPLACED_FILES`. -/
def replacedFiles : List FileField := [.zipfile, .interactor]

/-- A directory, which is the code of a problem, and a name in it. -/
abbrev FilePath := Text × Text

/-- `FieldFile.name`. -/
def FilePath.name (path : FilePath) : Text := path.1 ++ slash :: path.2

/-- `ProblemData`, with the code of its problem. -/
structure DataFiles where
  code : Text
  path : FileField → Option FilePath

/-- `UploadedFile`. -/
structure Upload (C : Type) where
  name : Text
  content : C
  deriving DecidableEq

/-- What `ProblemDataForm` is sent of its files: the uploads, and the clear boxes. -/
structure DataForm (C : Type) where
  upload : FileField → Option (Upload C)
  clear : FileField → Bool

/-- What the form uses of Django and of the zip files. -/
structure Packages (C : Type) where
  /-- `get_valid_name`, which raises on some names. -/
  validName : Text → Option Text
  size : C → ℕ
  /-- `ZipFile(...).namelist()`, which raises if the file is no zip file. -/
  namelist : C → Option (List Text)

variable {C : Type} (packages : Packages C) (disk : Disk Text C) (data : DataFiles) (form : DataForm C)

/-- The value of a field in `cleaned_data`, if it is true: its name. -/
def DataForm.cleanedName (field : FileField) : Option Text :=
  match form.upload field with
  | some upload => some upload.name
  | none => if form.clear field then none else (data.path field).map FilePath.name

/-- `FileField.clean`. -/
def DataForm.fieldError (field : FileField) : Option String :=
  (form.upload field).bind fun upload =>
    if form.clear field then some "Please either submit a file or check the clear checkbox, not both."
    else if 100 < upload.name.length then
      some ("Ensure this filename has at most 100 characters (it has " ++ toString upload.name.length ++ ").")
    else if packages.size upload.content = 0 then some "The submitted file is empty."
    else none

/-- `get_valid_files`, as far as it raises or not. -/
def DataForm.zipValid : Bool :=
  match form.upload .zipfile with
  | some upload => (packages.namelist upload.content).isSome
  | none =>
      if form.clear .zipfile then true
      else (data.path .zipfile).all fun path => ((disk.get? path).bind packages.namelist).isSome

/-- `is_safe_zip_name`. -/
def isSafeZipName (name : Text) : Bool :=
  name.all fun c => !(c.val < 32 || c.val = 127 || c.val = 0x3c || c.val = 0x3e)

def endsWith (name ending : Text) : Bool := name.drop (name.length - ending.length) = ending

/-- `clean_zipfile`. -/
def DataForm.zipfileError : Option String :=
  if !form.zipValid packages disk data then some "Your zip file is invalid!"
  else if (form.cleanedName data .zipfile).any (!endsWith · (Text.ofString ".zip")) then
    some "Zip files must end in '.zip'"
  else
    (form.upload .zipfile).bind fun upload =>
      match packages.namelist upload.content with
      | none => some "Your zip file is invalid!"
      | some names =>
          if names.all isSafeZipName then none
          else some "The names of the files inside the zip must not have control characters or angle brackets."

/-- `clean_generator`. -/
def DataForm.generatorError : Option String :=
  if form.cleanedName data .generator = some (Text.ofString "init.yml") then
    some "Generators must not be named init.yml."
  else none

/-- `INTERACTOR_MAX_SIZE`. -/
def interactorMaxSize : ℕ := 1048576

/-- `clean_interactor`. -/
def DataForm.interactorError : Option String :=
  (form.upload .interactor).bind fun upload =>
    if !Text.isIn (extension upload.name).lowerAscii (Compiler.interactorLanguages.map (·.1)) then
      some "The interactor must be a source file ending in .c, .cc, .cpp, .py."
    else if interactorMaxSize < packages.size upload.content then
      some "The interactor must not be larger than 1 MB."
    else none

/-- The error of a field on its own. -/
def DataForm.ownError (field : FileField) : Option String :=
  form.fieldError packages field <|>
    match field with
    | .zipfile => form.zipfileError packages disk data
    | .generator => form.generatorError data
    | .interactor => form.interactorError packages

/-- `clean`: the generator and the interactor have different names. -/
def DataForm.sameNameError : Option String :=
  if form.ownError packages disk data .generator = none ∧ form.ownError packages disk data .interactor = none ∧
      (form.cleanedName data .generator).isSome ∧
      (form.cleanedName data .generator).map basename = (form.cleanedName data .interactor).map basename then
    some "The generator and the interactor need different file names."
  else none

/-- The errors of the form, each with its field. -/
def DataForm.errors : List (FileField × String) :=
  (fileFields.filterMap fun field => (form.ownError packages disk data field).map fun error => (field, error)) ++
    ((form.sameNameError packages disk data).map fun error => (FileField.interactor, error)).toList

/-! ## Saving -/

/-- The path that a field has after a save. -/
def DataForm.target (code : Text) (path : FileField → Option FilePath) (field : FileField) : Option FilePath :=
  match form.upload field with
  | some upload => (packages.validName (basename upload.name)).map fun name => (code, name)
  | none => if form.clear field then none else path field

/-- `pre_save` of the fields in turn. Without paths, one of the uploads has no valid name: it raises, and what was written
before stays. -/
def DataForm.write (code : Text) : List FileField → Disk Text C → (FileField → Option FilePath) →
    Disk Text C × Option (FileField → Option FilePath)
  | [], disk, path => (disk, some path)
  | field :: fields, disk, path =>
      match form.upload field with
      | none =>
          write code fields disk (Function.update path field (if form.clear field then none else path field))
      | some upload =>
          match packages.validName (basename upload.name) with
          | none => (disk, none)
          | some name =>
              write code fields (disk.save (code, name) upload.content)
                (Function.update path field (some (code, name)))

/-- A file that is replaced or cleared is deleted by its old name. -/
def deleteOld (before after : FileField → Option FilePath) (disk : Disk Text C) (field : FileField) : Disk Text C :=
  match before field with
  | some path => if after field ≠ some path then disk.delete path else disk
  | none => disk

/-- The row, the storage, and what was last uploaded for each field. -/
structure World (C : Type) where
  data : DataFiles
  disk : Disk Text C
  uploaded : FileField → Option C

/-- A request with the form, and `ProblemData.save` if it is valid. -/
def World.save (w : World C) : World C :=
  if form.errors packages w.disk w.data ≠ [] then w
  else
    match form.write packages w.data.code fileFields w.disk w.data.path with
    | (disk, none) => { w with disk }
    | (disk, some path) =>
        { data := { w.data with path }
          disk := replacedFiles.foldl (deleteOld w.data.path path) disk
          uploaded := fun field =>
            match form.upload field with
            | some upload => some upload.content
            | none => if form.clear field then none else w.uploaded field }

/-- `Problem.save` with another code, and `_update_code`. If the directory of the new code has files it raises, and the
transaction of the admin is taken back. -/
def World.rename (w : World C) (code : Text) : World C :=
  let data : DataFiles := { code, path := fun field => (w.data.path field).map fun path => (code, path.2) }
  if code = w.data.code then w
  else
    match w.disk.rename w.data.code code with
    | .error .notFound => { w with data }
    | .error .notEmpty => w
    | .ok disk => { w with data, disk }

def initYml : Text := Text.ofString "init.yml"

/-- `ProblemDataCompiler.compile`, as far as it writes: the `testlib.h` and the `init.yml` that it comes to. -/
def World.compile [DecidableEq C] (w : World C) (testlib init : Option C) : World C :=
  let code := w.data.code
  let disk :=
    match testlib with
    | none => w.disk
    | some content =>
        if w.disk.get? (code, Compiler.testlibHeader) = some content then w.disk
        else w.disk.save (code, Compiler.testlibHeader) content
  { w with
    disk :=
      match init with
      | none => disk.delete (code, initYml)
      | some content => disk.save (code, initYml) content }

/-- What happens next. -/
inductive Act (C : Type) where
  | save (form : DataForm C)
  | rename (code : Text)
  | compile (testlib init : Option C)

variable [DecidableEq C]

def World.act (w : World C) : Act C → World C
  | .save form => w.save packages form
  | .rename code => w.rename code
  | .compile testlib init => w.compile testlib init

def World.run (w : World C) (acts : List (Act C)) : World C := acts.foldl (World.act packages) w

/-- The row of a new problem. -/
def World.start (code : Text) (disk : Disk Text C) : World C := ⟨⟨code, fun _ => none⟩, disk, fun _ => none⟩

/-! ## Saves that keep the files apart -/

/-- Every upload has a valid name, the fields have different paths afterwards, and the old path of a file that is replaced
or cleared is not one of them. -/
structure DataForm.Apart (code : Text) (path : FileField → Option FilePath) : Prop where
  valid : ∀ field, (form.upload field).all fun upload => (packages.validName (basename upload.name)).isSome
  distinct : ∀ field other, field ≠ other →
    form.target packages code path field = none ∨ form.target packages code path field ≠ form.target packages code path other
  replaced : ∀ field ∈ replacedFiles, ∀ other,
    path field = none ∨ form.target packages code path field = path field ∨ form.target packages code path other ≠ path field

/-- A step that keeps the files apart: a save that goes through does, and what is compiled has other names. -/
def World.Careful (w : World C) : Act C → Prop
  | .save form => form.errors packages w.disk w.data = [] → form.Apart packages w.data.code w.data.path
  | .rename _ => True
  | .compile testlib _ => ∀ field, ∀ path ∈ w.data.path field,
      path.2 ≠ initYml ∧ (testlib.isSome = true → path.2 ≠ Compiler.testlibHeader)

def World.CarefulRun (packages : Packages C) : World C → List (Act C) → Prop
  | _, [] => True
  | w, a :: acts => w.Careful packages a ∧ World.CarefulRun packages (w.act packages a) acts

variable {packages disk data form} {w : World C} {a : Act C} {acts : List (Act C)} {code : Text}
  {path path' before after : FileField → Option FilePath} {disk' : Disk Text C} {fields : List FileField}
  {field : FileField} {p : FilePath}

/-! ## What a save writes and deletes -/

omit [DecidableEq C] in
theorem target_congr (h : path field = path' field) :
    form.target packages code path field = form.target packages code path' field := by
  rw [DataForm.target, DataForm.target, h]

/-- What the fields in turn write. -/
structure Wrote (packages : Packages C) (form : DataForm C) (code : Text) (fields : List FileField) (disk : Disk Text C)
    (path : FileField → Option FilePath) (disk' : Disk Text C) (path' : FileField → Option FilePath) : Prop where
  paths : ∀ field ∈ fields, path' field = form.target packages code path field
  others : ∀ field ∉ fields, path' field = path field
  -- a file that no upload goes to stays
  kept : ∀ p, (∀ field ∈ fields, (form.upload field).isSome → form.target packages code path field ≠ some p) →
    disk'.get? p = disk.get? p
  -- an upload is there if no other field goes to its path
  written : ∀ field ∈ fields, ∀ upload p, form.upload field = some upload →
    form.target packages code path field = some p →
    (∀ other ∈ fields, other ≠ field → form.target packages code path other ≠ some p) → disk'.get? p = some upload.content

omit [DecidableEq C] in
/-- One more field before the others: `value` is the path it takes, and `disk1` what it leaves. -/
theorem Wrote.cons {disk1 : Disk Text C} {value : Option FilePath} (hnew : field ∉ fields)
    (hvalue : form.target packages code path field = value)
    (h : Wrote packages form code fields disk1 (Function.update path field value) disk' path')
    (hkept : ∀ p, ((form.upload field).isSome → value ≠ some p) → disk1.get? p = disk.get? p)
    (hwritten : ∀ upload p, form.upload field = some upload → value = some p → disk1.get? p = some upload.content) :
    Wrote packages form code (field :: fields) disk path disk' path' := by
  -- the later fields have the target they had before this one was saved
  have hlater : ∀ other ∈ fields, form.target packages code (Function.update path field value) other =
      form.target packages code path other := by
    intro other hother
    have hne : other ≠ field := fun heq => hnew (heq ▸ hother)
    exact target_congr (Function.update_of_ne hne _ _)
  refine ⟨fun other hother => ?_, fun other hother => ?_, fun p hp => ?_, fun other hother upload p hupload hp halone => ?_⟩
  · rcases List.mem_cons.mp hother with rfl | hother
    · rw [h.others other hnew, Function.update_self, hvalue]
    · rw [h.paths other hother, hlater other hother]
  · obtain ⟨hne, hnot⟩ := not_or.mp (List.mem_cons.not.mp hother)
    rw [h.others other hnot, Function.update_of_ne hne]
  · have hrest : ∀ other ∈ fields, (form.upload other).isSome →
        form.target packages code (Function.update path field value) other ≠ some p := by
      intro other hother hsome
      rw [hlater other hother]
      exact hp other (List.mem_cons_of_mem _ hother) hsome
    rw [h.kept p hrest]
    exact hkept p fun hsome => hvalue ▸ hp field List.mem_cons_self hsome
  · rcases List.mem_cons.mp hother with rfl | hother
    · have hrest : ∀ third ∈ fields, (form.upload third).isSome →
          form.target packages code (Function.update path other value) third ≠ some p := by
        intro third hthird _
        rw [hlater third hthird]
        exact halone third (List.mem_cons_of_mem _ hthird) fun heq => hnew (heq ▸ hthird)
      rw [h.kept p hrest]
      exact hwritten upload p hupload (hvalue.symm.trans hp)
    · rw [← hlater other hother] at hp
      refine h.written other hother upload p hupload hp fun third hthird hne => ?_
      rw [hlater third hthird]
      exact halone third (List.mem_cons_of_mem _ hthird) hne

omit [DecidableEq C] in
theorem write_spec (code : Text) (hnodup : fields.Nodup)
    (hvalid : ∀ field, (form.upload field).all fun upload => (packages.validName (basename upload.name)).isSome)
    (disk : Disk Text C) (path : FileField → Option FilePath) :
    ∃ disk' path', form.write packages code fields disk path = (disk', some path') ∧
      Wrote packages form code fields disk path disk' path' := by
  induction fields generalizing disk path with
  | nil =>
      exact ⟨disk, path, rfl, fun _ h => absurd h List.not_mem_nil, fun _ _ => rfl, fun _ _ => rfl,
        fun _ h => absurd h List.not_mem_nil⟩
  | cons field fields ih =>
      obtain ⟨hnew, hrest⟩ := List.nodup_cons.mp hnodup
      cases hupload : form.upload field with
      | none =>
          -- nothing is written for this field
          obtain ⟨disk', path', hwrite, h⟩ :=
            ih hrest disk (Function.update path field (if form.clear field then none else path field))
          refine ⟨disk', path', by rw [DataForm.write, hupload]; exact hwrite, h.cons hnew ?_ (fun _ _ => rfl) ?_⟩
          · rw [DataForm.target, hupload]
          · intro upload p hsome
            rw [hupload] at hsome
            cases hsome
      | some upload =>
          have hvalid' := hvalid field
          rw [hupload, Option.all_some] at hvalid'
          obtain ⟨name, hname⟩ := Option.isSome_iff_exists.mp hvalid'
          obtain ⟨disk', path', hwrite, h⟩ :=
            ih hrest (disk.save (code, name) upload.content) (Function.update path field (some (code, name)))
          refine ⟨disk', path', ?_, h.cons hnew ?_ (fun p hp => ?_) fun upload' p hsome hp => ?_⟩
          · rw [DataForm.write, hupload]
            dsimp only
            rw [hname]
            exact hwrite
          · rw [DataForm.target, hupload]
            show (packages.validName (basename upload.name)).map _ = _
            rw [hname, Option.map_some]
          · have hne : p ≠ (code, name) := fun heq => hp (by rw [hupload]; rfl) (by rw [heq])
            rw [Disk.get?_save_of_ne hne]
          · obtain rfl := Option.some.inj (hupload.symm.trans hsome)
            obtain rfl := Option.some.inj hp
            rw [Disk.get?_save_self]

omit [DecidableEq C] in
theorem get?_deleteOld (h : ∀ old, before field = some old → after field ≠ some old → p ≠ old) :
    (deleteOld before after disk field).get? p = disk.get? p := by
  unfold deleteOld
  split
  next old hold =>
    split
    next hchanged => exact Disk.get?_delete_of_ne (h old hold hchanged)
    next => rfl
  next => rfl

omit [DecidableEq C] in
theorem get?_deleteOld_none (h : disk.get? p = none) : (deleteOld before after disk field).get? p = none := by
  unfold deleteOld
  split
  next old _ =>
    split
    next =>
      by_cases hsame : p = old
      · rw [hsame]
        exact Disk.get?_delete_self
      · rw [Disk.get?_delete_of_ne hsame, h]
    next => exact h
  next => exact h

omit [DecidableEq C] in
theorem get?_foldl_deleteOld (h : ∀ field ∈ fields, ∀ old, before field = some old → after field ≠ some old → p ≠ old) :
    (fields.foldl (deleteOld before after) disk).get? p = disk.get? p := by
  induction fields generalizing disk with
  | nil => rfl
  | cons field fields ih =>
      rw [List.foldl_cons, ih fun other hother => h other (List.mem_cons_of_mem _ hother),
        get?_deleteOld (h field List.mem_cons_self)]

omit [DecidableEq C] in
theorem get?_foldl_deleteOld_none (h : disk.get? p = none) :
    (fields.foldl (deleteOld before after) disk).get? p = none := by
  induction fields generalizing disk with
  | nil => exact h
  | cons field fields ih => exact ih (get?_deleteOld_none h)

omit [DecidableEq C] in
/-- There is nothing at the old path of a file that was replaced or cleared. -/
theorem get?_deleted (hfield : field ∈ fields) (hold : before field = some p) (hchanged : after field ≠ some p) :
    (fields.foldl (deleteOld before after) disk).get? p = none := by
  induction fields generalizing disk with
  | nil => cases hfield
  | cons other fields ih =>
      rw [List.foldl_cons]
      rcases List.mem_cons.mp hfield with rfl | hfield
      · refine get?_foldl_deleteOld_none ?_
        rw [deleteOld, hold]
        show (if after field ≠ some p then disk.delete p else disk).get? p = none
        rw [if_pos hchanged]
        exact Disk.get?_delete_self
      · exact ih hfield

/-! ## The files are there -/

/-- A file of the row is in the directory of the problem, with what was last uploaded for its field. -/
structure World.Sound (w : World C) : Prop where
  inside : ∀ field p, w.data.path field = some p → p.1 = w.data.code
  stored : ∀ field p, w.data.path field = some p → ∃ content, w.uploaded field = some content ∧ w.disk.get? p = some content

omit [DecidableEq C] in
/-- What a save makes of the world, if the form is valid and keeps the files apart. -/
theorem save_spec (w : World C) (hvalid : form.errors packages w.disk w.data = [])
    (hapart : form.Apart packages w.data.code w.data.path) :
    ∃ disk' path', Wrote packages form w.data.code fileFields w.disk w.data.path disk' path' ∧
      w.save packages form =
        { data := { w.data with path := path' }
          disk := replacedFiles.foldl (deleteOld w.data.path path') disk'
          uploaded := fun field =>
            match form.upload field with
            | some upload => some upload.content
            | none => if form.clear field then none else w.uploaded field } := by
  have hnodup : fileFields.Nodup := by decide
  obtain ⟨disk', path', hwrite, h⟩ := write_spec w.data.code hnodup hapart.valid w.disk w.data.path
  refine ⟨disk', path', h, ?_⟩
  rw [World.save, if_neg (not_not.mpr hvalid), hwrite]

omit [DecidableEq C] in
theorem target_inside (h : form.target packages code path field = some p)
    (hinside : ∀ p, path field = some p → p.1 = code) : p.1 = code := by
  unfold DataForm.target at h
  split at h
  next upload _ =>
    obtain ⟨name, -, rfl⟩ := Option.map_eq_some_iff.mp h
    rfl
  next =>
    split at h
    next => cases h
    next => exact hinside p h

omit [DecidableEq C] in
/-- No other field takes the path of this one. -/
theorem DataForm.Apart.alone (h : form.Apart packages code path) (hp : form.target packages code path field = some p)
    {other : FileField} (hne : other ≠ field) : form.target packages code path other ≠ some p := by
  intro heq
  rcases h.distinct other field hne with hnone | hdistinct
  · rw [hnone] at heq
    cases heq
  · exact hdistinct (heq.trans hp.symm)

omit [DecidableEq C] in
/-- No old file is deleted at the path that a field has now. -/
theorem DataForm.Apart.undeleted (h : form.Apart packages code path) (hp : form.target packages code path field = some p)
    (hpaths : ∀ field, path' field = form.target packages code path field) :
    (replacedFiles.foldl (deleteOld path path') disk).get? p = disk.get? p := by
  refine get?_foldl_deleteOld fun other hother old hold hchanged => ?_
  rintro rfl
  rw [hpaths other] at hchanged
  rcases h.replaced other hother field with hnone | hkept | hfree
  · rw [hnone] at hold
    cases hold
  · exact hchanged (hkept.trans hold)
  · exact hfree (hp.trans hold.symm)

omit [DecidableEq C] in
theorem World.Sound.save (h : w.Sound) (hapart : form.errors packages w.disk w.data = [] →
    form.Apart packages w.data.code w.data.path) : (w.save packages form).Sound := by
  by_cases hvalid : form.errors packages w.disk w.data = []
  · have hapart := hapart hvalid
    obtain ⟨disk', path', hwrote, hsave⟩ := save_spec w hvalid hapart
    have htarget : ∀ field, path' field = form.target packages w.data.code w.data.path field :=
      fun field => hwrote.paths field (mem_fileFields field)
    rw [hsave]
    refine ⟨fun field p hp => target_inside ((htarget field).symm.trans hp) (h.inside field), fun field p hp => ?_⟩
    have hp' : form.target packages w.data.code w.data.path field = some p := (htarget field).symm.trans hp
    show ∃ content, _ ∧ (replacedFiles.foldl (deleteOld w.data.path path') disk').get? p = some content
    rw [hapart.undeleted hp' htarget]
    dsimp only
    cases hupload : form.upload field with
    | some upload =>
        exact ⟨upload.content, rfl, hwrote.written field (mem_fileFields field) upload p hupload hp'
          fun other _ hne => hapart.alone hp' hne⟩
    | none =>
        have hkept : disk'.get? p = w.disk.get? p := by
          refine hwrote.kept p fun other _ hsome => ?_
          by_cases hsame : other = field
          · rw [hsame, hupload] at hsome
            cases hsome
          · exact hapart.alone hp' hsame
        rw [DataForm.target, hupload] at hp'
        dsimp only at hp' ⊢
        split at hp'
        next => cases hp'
        next hkeep =>
          obtain ⟨content, hcontent, hstored⟩ := h.stored field p hp'
          exact ⟨content, by rw [if_neg hkeep, hcontent], hkept.trans hstored⟩
  · rw [World.save, if_pos hvalid]
    exact h

omit [DecidableEq C] in
theorem World.Sound.rename (h : w.Sound) : (w.rename code).Sound := by
  unfold World.rename
  dsimp only
  split
  · exact h
  · have hmoved : ∀ field p, ((w.data.path field).map fun path : FilePath => (code, path.2)) = some p →
        ∃ name, w.data.path field = some (w.data.code, name) ∧ p = (code, name) := by
      intro field p hp
      obtain ⟨old, hold, rfl⟩ := Option.map_eq_some_iff.mp hp
      exact ⟨old.2, hold.trans (congrArg some (Prod.ext (h.inside field old hold) rfl)), rfl⟩
    split
    next hgone =>
      refine ⟨fun field p hp => ?_, fun field p hp => ?_⟩
      · obtain ⟨name, -, rfl⟩ := hmoved field p hp
        rfl
      · -- the directory is not there, and so there was no file
        obtain ⟨name, hold, rfl⟩ := hmoved field p hp
        obtain ⟨content, -, hstored⟩ := h.stored field _ hold
        have hthere := Disk.mem_directories hstored
        unfold Disk.rename at hgone
        split at hgone
        next hnot => exact absurd hthere hnot
        next => split at hgone <;> cases hgone
    next => exact h
    next disk hdisk =>
      refine ⟨fun field p hp => ?_, fun field p hp => ?_⟩
      · obtain ⟨name, -, rfl⟩ := hmoved field p hp
        rfl
      · obtain ⟨name, hold, rfl⟩ := hmoved field p hp
        obtain ⟨content, hcontent, hstored⟩ := h.stored field _ hold
        exact ⟨content, hcontent, (Disk.get?_rename hdisk).trans hstored⟩

theorem World.Sound.compile {testlib init : Option C} (h : w.Sound)
    (hcareful : w.Careful packages (.compile testlib init)) : (w.compile testlib init).Sound := by
  refine ⟨h.inside, fun field p hp => ?_⟩
  obtain ⟨hinit, htestlib⟩ := hcareful field p hp
  obtain ⟨content, hcontent, hstored⟩ := h.stored field p hp
  have hne : p ≠ (w.data.code, initYml) := fun heq => hinit (congrArg Prod.snd heq)
  refine ⟨content, hcontent, ?_⟩
  rw [← hstored]
  have hsupport : (match testlib with
      | none => w.disk
      | some content =>
          if w.disk.get? (w.data.code, Compiler.testlibHeader) = some content then w.disk
          else w.disk.save (w.data.code, Compiler.testlibHeader) content).get? p = w.disk.get? p := by
    split
    next => rfl
    next content =>
      split
      next => rfl
      next => exact Disk.get?_save_of_ne fun heq => htestlib rfl (congrArg Prod.snd heq)
  rw [← hsupport]
  cases init with
  | none => exact Disk.get?_delete_of_ne hne
  | some init => exact Disk.get?_save_of_ne hne

/-! ## Whole runs -/

theorem World.Sound.act (h : w.Sound) (hcareful : w.Careful packages a) : (w.act packages a).Sound := by
  cases a with
  | save form => exact h.save hcareful
  | rename code => exact h.rename
  | compile testlib init => exact h.compile hcareful

theorem World.Sound.run (h : w.Sound) (hcareful : w.CarefulRun packages acts) : (w.run packages acts).Sound := by
  induction acts generalizing w with
  | nil => exact h
  | cons a acts ih => exact ih (h.act hcareful.1) hcareful.2

theorem World.carefulRun_append {first rest : List (Act C)} (h : w.CarefulRun packages (first ++ rest)) :
    w.CarefulRun packages first ∧ (w.run packages first).CarefulRun packages rest := by
  induction first generalizing w with
  | nil => exact ⟨trivial, h⟩
  | cons a first ih =>
      obtain ⟨hfirst, hrest⟩ := ih h.2
      exact ⟨⟨h.1, hfirst⟩, hrest⟩

omit [DecidableEq C] in
theorem World.sound_start (code : Text) (disk : Disk Text C) : (World.start code disk).Sound where
  inside _ _ h := by cases h
  stored _ _ h := by cases h

omit [DecidableEq C] in
/-- A save leaves nothing at the old path of a file that it replaces or clears. -/
theorem save_deletes (hcareful : w.Careful packages (.save form)) (hfield : field ∈ replacedFiles)
    (hold : w.data.path field = some p) (hchanged : (w.save packages form).data.path field ≠ some p) :
    (w.save packages form).disk.get? p = none := by
  by_cases hvalid : form.errors packages w.disk w.data = []
  · obtain ⟨disk', path', -, hsave⟩ := save_spec w hvalid (hcareful hvalid)
    rw [hsave] at hchanged ⊢
    exact get?_deleted hfield hold hchanged
  · rw [World.save, if_pos hvalid] at hchanged
    exact absurd hold hchanged

/-- While the saves keep the files apart, every file of the row is stored with what was last uploaded for its field, and
no zip file or interactor stays after it was replaced or cleared. -/
theorem files_kept (packages : Packages C) (code : Text) (disk : Disk Text C) (acts : List (Act C))
    (hcareful : (World.start code disk).CarefulRun packages acts) :
    (∀ field p, ((World.start code disk).run packages acts).data.path field = some p →
      ∃ content, ((World.start code disk).run packages acts).uploaded field = some content ∧
        ((World.start code disk).run packages acts).disk.get? p = some content) ∧
    ∀ (first : List (Act C)) (form : DataForm C) (rest : List (Act C)), acts = first ++ .save form :: rest →
      ∀ field ∈ replacedFiles, ∀ p, ((World.start code disk).run packages first).data.path field = some p →
        ((World.start code disk).run packages (first ++ [.save form])).data.path field ≠ some p →
          ((World.start code disk).run packages (first ++ [.save form])).disk.get? p = none := by
  refine ⟨((World.sound_start code disk).run hcareful).stored, ?_⟩
  rintro first form rest rfl field hfield p hold hchanged
  obtain ⟨hsave, -⟩ := (World.carefulRun_append hcareful).2
  rw [World.run, List.foldl_append] at hchanged ⊢
  exact save_deletes hsave hfield hold hchanged

/-- A form with some uploads. -/
def uploads (files : List (FileField × Upload C)) : DataForm C := ⟨fun field => files.lookup field, fun _ => false⟩

/-- Files that are texts, none of them a zip file, with plain names. -/
def textPackages : Packages Text where
  validName := some
  size := List.length
  namelist _ := none

def source (name content : String) : Upload Text := ⟨Text.ofString name, Text.ofString content⟩

/-- An interactor that takes the place of another, and a generator. -/
def replacing (generator : String) : List (Act Text) :=
  [.save (uploads [(.interactor, source "x.py" "first")]),
    .save (uploads [(.interactor, source "y.py" "second"), (.generator, source generator "third")])]

theorem files_kept_replacing :
    ((World.start (Text.ofString "aplusb") ⟨[], [], by simp⟩).run textPackages (replacing "g.py")).disk.get?
        (Text.ofString "aplusb", Text.ofString "g.py") = some (Text.ofString "third") := by
  have hcareful : (World.start (Text.ofString "aplusb") ⟨[], [], by simp⟩).CarefulRun textPackages (replacing "g.py") :=
    ⟨fun _ => ⟨by decide +kernel, by decide +kernel, by decide +kernel⟩,
      fun _ => ⟨by decide +kernel, by decide +kernel, by decide +kernel⟩, trivial⟩
  obtain ⟨content, hcontent, hstored⟩ := (files_kept textPackages _ _ (replacing "g.py") hcareful).1 .generator _
    (by decide +kernel : _ = some (Text.ofString "aplusb", Text.ofString "g.py"))
  have hthird : some content = some (Text.ofString "third") := hcontent.symm.trans (by decide +kernel)
  rw [hstored, hthird]

/-- The generator takes the name of the interactor that is replaced. -/
theorem file_lost :
    ¬ ∀ (C : Type) (_ : DecidableEq C) (packages : Packages C) (code : Text) (disk : Disk Text C) (acts : List (Act C)),
      ∀ field p, ((World.start code disk).run packages acts).data.path field = some p →
        ∃ content, ((World.start code disk).run packages acts).uploaded field = some content ∧
          ((World.start code disk).run packages acts).disk.get? p = some content := by
  intro h
  obtain ⟨content, -, hstored⟩ := h Text inferInstance textPackages (Text.ofString "aplusb") ⟨[], [], by simp⟩
    (replacing "x.py") .generator (Text.ofString "aplusb", Text.ofString "x.py") (by decide +kernel)
  have hnone : ((World.start (Text.ofString "aplusb") ⟨[], [], by simp⟩).run textPackages (replacing "x.py")).disk.get?
      (Text.ofString "aplusb", Text.ofString "x.py") = none := by decide +kernel
  rw [hnone] at hstored
  cases hstored

end CpcJudge.Problems
