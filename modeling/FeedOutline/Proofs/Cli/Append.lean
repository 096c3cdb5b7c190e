import FeedOutline.Proofs.Cli.Session
import FeedOutline.Proofs.Compile.Documents
import FeedOutline.Proofs.Opml.Marked

/-!
Importing a list into an outline that is there already. The outline of the list is added behind the bytes
of the file, and no line end is put between the two.
-/
namespace FeedOutline.Cli

open Disk (Pathname FileTree)
open Outline (parse)
open Text

variable {files : FileTree} {args : List String} {r : Request} {list out : Pathname} {heading : String}

/-! The request. -/

theorem plain_of_outputOf {a : Arguments} (h : outputOf files a = .ok (some out)) : out.Plain := by
  unfold outputOf at h
  split at h
  · next path _ =>
    have hcheck : checkOutput files path = .ok out := by
      cases hresult : checkOutput files path <;> simp_all [Except.map]
    unfold checkOutput checkPath at hcheck
    split_ifs at hcheck
    cases hcheck
    exact Pathname.plain_ofText path
  · cases h

theorem plain_of_command {reader : CommandReader} (hreader : reader ∈ commandReaders) {a : Arguments}
    (h : reader.command files a = .ok (.importList list (some out) heading)) : out.Plain := by
  simp only [commandReaders, List.mem_cons, List.not_mem_nil, or_false] at hreader
  rcases hreader with rfl | rfl | rfl | rfl
  · obtain ⟨_, -, h⟩ := bind_eq_ok.1 h
    cases h
  · obtain ⟨_, -, h⟩ := bind_eq_ok.1 h
    obtain ⟨_, -, h⟩ := bind_eq_ok.1 h
    cases h
  · obtain ⟨output, houtput, h⟩ := bind_eq_ok.1 h
    split at h
    · cases h
    · obtain ⟨path, -, h⟩ := bind_eq_ok.1 h
      split at h
      · cases h
        exact plain_of_outputOf houtput
      · cases h
  · simp only [tagReader] at h
    split at h
    · cases h
    · obtain ⟨_, -, h⟩ := bind_eq_ok.1 h
      obtain ⟨_, -, h⟩ := bind_eq_ok.1 h
      cases h

theorem readGeneral_ne_request : readGeneral args ≠ .ok (.inl (.request r)) := by
  intro h
  unfold readGeneral at h
  obtain ⟨a, -, h⟩ := bind_eq_ok.1 h
  split at h
  · next asked habout =>
    cases h
    obtain ⟨o, -, ho⟩ := List.exists_of_findSome?_eq_some habout
    split_ifs at ho <;> cases ho
  · obtain ⟨_, -, h⟩ := bind_eq_ok.1 h
    obtain ⟨_, -, h⟩ := bind_eq_ok.1 h
    cases h

theorem unknownCommand_ne_request {name : String} {words : List String} :
    unknownCommand name words ≠ .ok (.request r) := by
  intro h
  unfold unknownCommand at h
  obtain ⟨asked, hasked, h⟩ := bind_eq_ok.1 h
  split at h
  · cases h
    exact readGeneral_ne_request hasked
  · cases h

theorem plain_of_ofArguments (h : Asked.ofArguments files args = .ok (.request r))
    (hcommand : r.command = .importList list (some out) heading) : out.Plain := by
  unfold Asked.ofArguments at h
  obtain ⟨general, hgeneral, hasked⟩ := bind_eq_ok.1 h
  split at hasked
  · cases hasked
    exact absurd hgeneral readGeneral_ne_request
  · split at hasked
    · cases hasked
    · split at hasked
      · exact absurd hasked unknownCommand_ne_request
      · next reader hfind =>
        obtain ⟨a, -, hread⟩ := bind_eq_ok.1 hasked
        split at hread
        · cases hread
        · obtain ⟨command, hmake, hrequest⟩ := bind_eq_ok.1 hread
          cases hrequest
          exact plain_of_command (List.mem_of_find?_eq_some hfind)
            (hmake.trans (congrArg Except.ok hcommand))

/-! The command. -/

theorem not_gives_failImport {s s' : Session} {u : Unit} : ¬ Gives (failImport (some out)) s u s' := by
  intro h
  unfold failImport at h
  dsimp only at h
  rw [Gives.files_bind_iff] at h
  obtain ⟨_, m, -, hcrash⟩ := Gives.bind_iff.1 h
  exact Gives.not_crash hcrash

theorem runImport_gives {s s' : Session} {u : Unit}
    (h : Gives (runImport r list (some out) heading) s u s') :
    ∃ c ready document marker outline records t, Gives (prepare r) s c ready ∧
      ready.outputs.files.readText list.text = .ok document ∧ c.outline.treeId = .whole marker ∧
      Opml.toOutline document marker heading = .ok outline ∧
      (ready.logger.deliverAll ready.time records ready.outputs).files.append out.text
        (encodeUtf8 outline) = .ok t ∧
      s'.logger = ready.logger ∧ s'.outputs.files = t := by
  unfold runImport at h
  obtain ⟨c, ready, hready, h⟩ := Gives.bind_iff.1 h
  rw [Gives.files_bind_iff] at h
  split at h
  · exact absurd h Gives.not_crash
  · next document hdocument =>
    split at h
    · exact absurd h Gives.not_fail
    · next items hitems =>
      unfold Run.say at h
      rw [Gives.modify_bind_iff] at h
      split at h
      · exact absurd h not_gives_failImport
      · next marker hmarker =>
        unfold writeImport at h
        dsimp only at h
        rw [Gives.files_bind_iff] at h
        obtain ⟨_, m, hchange, hprint⟩ := Gives.bind_iff.1 h
        obtain ⟨t, happend, rfl⟩ := Gives.change_iff.1 hchange
        have houtline : Opml.toOutline document marker heading =
            .ok (Opml.outlineOf marker heading items) := by
          rw [Opml.toOutline, hitems]
          rfl
        have hend := Gives.modify_iff.1 hprint
        exact ⟨c, ready, document, marker, _, _, t, hready, hdocument, hmarker, houtline, happend,
          by rw [hend], by rw [hend]; rfl⟩

theorem runArguments_gives {s s' : Session} (h : Gives (runArguments args) s () s')
    (hasked : Asked.ofArguments s.outputs.files args = .ok (.request r)) :
    Gives (runRequest r) s () s' := by
  unfold runArguments at h
  split at h
  · obtain ⟨_, m, -, h⟩ := Gives.bind_iff.1 h
    cases (h : (Except.error (Stop.exit 2), m) = (Except.ok (), s'))
  · rw [Gives.files_bind_iff, hasked] at h
    exact h

theorem encodeUtf8_append (a b : String) : encodeUtf8 (a ++ b) = encodeUtf8 a ++ encodeUtf8 b := by
  simp [encodeUtf8_eq]

def start (env : Environment) (files : FileTree) (time : Data.Decimal) : Session :=
  ⟨⟨none, env⟩, {}, { files }, time⟩

/-- An import that succeeds adds the outline of its list to the bytes of the file, unless the log is kept
there. The headings of the file and those of the list are then read one after the other exactly if the
file was empty or ended in a line end. -/
theorem import_appends {env : Environment} {time : Data.Decimal} {s : Session}
    (hargs : Asked.ofArguments files args = .ok (.request r))
    (hcommand : r.command = .importList list (some out) heading)
    (hrun : Gives (runArguments args) (start env files time) () s) :
    ∃ c ready document marker outline, Gives (prepare r) (start env files time) c ready ∧
      ready.outputs.files.readText list.text = .ok document ∧ c.outline.treeId = .whole marker ∧
      Opml.toOutline document marker heading = .ok outline ∧
      (s.logger.Spares (out.absolute files.here) →
        ∀ before, files.bytesAt (out.absolute files.here) = encodeUtf8 before →
        s.outputs.files.read out.text = .ok (encodeUtf8 (before ++ outline)) ∧
        (parse (before ++ outline) = parse before ++ parse outline ↔
          ∀ c ∈ before.toList.getLast?, isBreak c = true)) ∧
      (isTag marker.toList = true → (∀ c ∈ heading.toList, isBreak c = false) →
        ∃ tree trees, parse outline = tree :: trees ∧ tree.level = 1 ∧ marker ∈ tree.tags) := by
  have hplain := plain_of_ofArguments hargs hcommand
  have hrequest : Gives (runRequest r) (start env files time) () s := runArguments_gives hrun hargs
  rw [runRequest, hcommand] at hrequest
  obtain ⟨c, ready, document, marker, outline, records, t, hready, hdocument, hmarker, houtline, happend, hlogger,
    hfiles⟩ := runImport_gives hrequest
  obtain ⟨names, hreaches, -, hfind⟩ := Disk.FileTree.find_append hplain happend
  obtain ⟨items, hitems⟩ : ∃ items, outline = Opml.outlineOf marker heading items := by
    obtain ⟨items, -, hitems⟩ := bind_eq_ok.1 houtline
    exact ⟨items, (Except.ok.inj hitems).symm⟩
  subst hitems
  refine ⟨c, ready, document, marker, _, hready, hdocument, hmarker, houtline,
    fun hspares before hbefore => ⟨?_, ?_⟩, ?_⟩
  · have hspares' : ready.logger.Spares (out.absolute files.here) := hlogger ▸ hspares
    have halike := (hready.prepare rfl hspares').trans (hspares'.alike_deliverAll ready.time records ready.outputs)
    have hnames : names = out.absolute files.here := by rw [hreaches.names_eq hplain, halike.here, start]
    rw [hnames, halike.bytes] at hfind
    rw [hfiles, FileTree.read, hfind]
    simp only [start, hbefore, encodeUtf8_append]
  · exact Outline.parse_append_iff (Opml.startsAtTop_outlineOf _ _ _)
  · intro hmarker htop
    obtain ⟨tree, trees, hparse, hlevel, -, htags⟩ :=
      Opml.exists_tree_outlineOf (Config.accepted_of_isTag hmarker) htop items
    exact ⟨tree, trees, hparse, hlevel, by simp [htags, hmarker]⟩

/-- The first imported heading is lost in a heading line that has no end. -/
theorem heading_swallowed :
    let list := "<opml><body><outline text=\"A\" xmlUrl=\"http://a.example\"/></body></opml>"
    let before := "* Notes :old:"
    let files : FileTree :=
      { entries := [(["feeds.opml"], .file (encodeUtf8 list)), (["out.org"], .file (encodeUtf8 before))] }
    ∃ s outline after,
      Gives (runArguments ["import-opml", "feeds.opml", "-o", "out.org"])
        (start {} files (.finite false 0 0)) () s ∧
      Opml.toOutline list "elfeed" "Imported feeds" = .ok outline ∧
      files.readText "out.org" = .ok before ∧ s.outputs.files.readText "out.org" = .ok after ∧
      parse after ≠ parse before ++ parse outline := by
  intro list before files
  have hlength : (parse "* Notes :old:* Imported feeds :elfeed:\n** [[http://a.example][A]]\n").length ≠
      (parse before ++ parse "* Imported feeds :elfeed:\n** [[http://a.example][A]]\n").length := by
    decide +kernel
  exact ⟨_, "* Imported feeds :elfeed:\n** [[http://a.example][A]]\n", _, .of_result (by decide +kernel),
    by decide +kernel, by decide +kernel, by decide +kernel,
    fun heq => hlength (congrArg List.length heq)⟩

/-- A file that ends in an open drawer below a deep heading, and a log beside it. -/
theorem import_appends_of_open_drawer :
    let list := "<opml><body><outline text=\"A\" xmlUrl=\"http://a.example\"/></body></opml>"
    let before := "* Notes\n*** Deep\n:PROPERTIES:\n"
    let files : FileTree := ⟨["home"], [(["home"], .directory), (["home", "feeds.opml"], .file (encodeUtf8 list)),
      (["out.org"], .file (encodeUtf8 before))]⟩
    let env : Environment := { vars := [("LOG_FILE", "/run.log")] }
    let args := ["import-opml", "feeds.opml", "-o", "../out.org"]
    let out := Pathname.ofText "../out.org"
    let r : Request := { command := .importList (Pathname.ofText "feeds.opml") (some out) "Imported feeds" }
    Asked.ofArguments files args = .ok (.request r) ∧
      ∃ s, Gives (runArguments args) (start env files (.finite false 0 0)) () s ∧
        out.absolute files.here = ["out.org"] ∧ s.logger.Spares ["out.org"] ∧
        files.bytesAt ["out.org"] = encodeUtf8 before ∧
        ∃ outline, s.outputs.files.read "../out.org" = .ok (encodeUtf8 (before ++ outline)) ∧
          parse (before ++ outline) = parse before ++ parse outline ∧
          ∃ tree trees, parse outline = tree :: trees ∧ tree.level = 1 ∧ "elfeed" ∈ tree.tags := by
  intro list before files env args out r
  have hargs : Asked.ofArguments files args = .ok (.request r) := by decide +kernel
  have hrun := Gives.of_result (x := runArguments args) (s := start env files (.finite false 0 0))
    (a := ()) (by decide +kernel)
  obtain ⟨c, ready, document, marker, outline, hready, -, hmarker, -, happend, hmarked⟩ :=
    import_appends hargs rfl hrun
  have hconfig : c = {} := Except.ok.inj (hready.result.symm.trans (by decide +kernel))
  subst hconfig
  cases hmarker
  have hspares : ((runArguments args).run.run (start env files (.finite false 0 0))).2.logger.Spares
      ["out.org"] := by
    have hfiles : ((runArguments args).run.run (start env files (.finite false 0 0))).2.logger.files =
        [["run.log"]] := by decide +kernel
    rw [Log.Logger.Spares, hfiles, List.forall_mem_singleton]
    refine ⟨by decide, fun i _ heq => ?_⟩
    have hhead : "out.org" = "run.log" ++ "." ++ toString i := (List.cons.inj heq).1
    simpa using congrArg (·.toList.head?) hhead
  have hout : out.absolute files.here = ["out.org"] := by decide +kernel
  have hbefore : files.bytesAt ["out.org"] = encodeUtf8 before := by decide +kernel
  have hclosed : ∀ c ∈ before.toList.getLast?, isBreak c = true := by decide +kernel
  rw [hout] at happend
  obtain ⟨hread, hparse⟩ := happend hspares before hbefore
  exact ⟨hargs, _, hrun, hout, hspares, hbefore, outline, hread, hparse.2 hclosed,
    hmarked (by decide +kernel) (by decide +kernel)⟩

end FeedOutline.Cli
