import AgentsCommander.Tasks.DocumentLaw
import AgentsCommander.Transcript.Utf8

/-! Edits of the task document through its file: the title set is the title read, a user's title
is the user's over every run, and an edit made twice is made once. -/
namespace AgentsCommander.Tasks
open Foundation Foundation.Lines Transcript

/-- The titles that the callers let through are of a single line. -/
def TaskOp.SingleLine : TaskOp → Prop
  | .setTitle title | .setUserTitle title => '\n' ∉ title
  | .appendBody _ | .setBody _ | .clean => True

/-- What a coordinator may ask for. -/
def TaskOp.FromCoordinator : TaskOp → Prop
  | .setTitle title => '\n' ∉ title
  | .appendBody _ | .setBody _ => True
  | .setUserTitle _ | .clean => False

/-- The title that an edit is to give the document. -/
def TaskOp.title? : TaskOp → Option Text
  | .setTitle title => some title
  | .setUserTitle title => some (userOwnedTitle title)
  | .clean => some "Clean".toList
  | .appendBody _ | .setBody _ => none

def document (file : Option Text) : ParsedTask := parseTask (file.getD [])

theorem readTitle_eq (file : Option Text) : readTitle file = titleValueOf (document file) := by
  cases file with
  | none => rfl
  | some content => rfl

/-! ### The edits keep a document well formed -/

theorem stripEol_quote (s : Text) : stripEol (s ++ ['\'']) = s ++ ['\''] :=
  List.rdropWhile_concat_neg _ s '\'' (by decide)

theorem newTitleLine_eq (title : Text) :
    newTitleLine title = 't' :: ("itle: '".toList ++ double '\'' title) ++ ['\''] := by
  have hkey : "title: '".toList = 't' :: "itle: '".toList := by decide
  unfold newTitleLine
  generalize double '\'' title = inner
  rw [hkey]
  generalize "itle: '".toList = key
  rfl

theorem isLine_newTitleLine {blank title : Text} (hblank : ∀ c ∈ blank, isWhitespace c = true)
    (hline : '\n' ∉ blank) (htitle : '\n' ∉ title) : IsLine (blank ++ newTitleLine title) := by
  have hmem : '\n' ∉ newTitleLine title := by
    have hkey : '\n' ∉ "title: '".toList := by decide
    have hquote : '\n' ∉ ['\''] := by decide
    unfold newTitleLine
    rw [List.mem_append, List.mem_append, mem_double]
    rintro ((hmem | hmem) | hmem)
    · exact hkey hmem
    · exact htitle hmem
    · exact hquote hmem
  have hends := newTitleLine_eq title
  generalize "itle: '".toList ++ double '\'' title = inner at hends
  have hstrip : stripEol (blank ++ newTitleLine title) = blank ++ newTitleLine title := by
    rw [hends, ← List.append_assoc, stripEol_quote]
  have htrim : trim (blank ++ newTitleLine title) = newTitleLine title := by
    rw [trim_eq, trimStart_append hblank, hends, List.cons_append, trimStart_cons (by decide),
      ← List.cons_append, trimEnd_concat (by decide)]
  refine ⟨by simp [hline, hmem], hstrip, ?_⟩
  rw [htrim, hends]
  intro heq
  exact absurd (List.cons.inj heq).1 (by decide)

theorem userOwnedTitle_singleLine {title : Text} (h : '\n' ∉ title) :
    '\n' ∉ userOwnedTitle title := by
  have htrim : '\n' ∉ trim title := fun hmem => h ((trim_sublist title).subset hmem)
  simp only [userOwnedTitle]
  split_ifs
  · exact htrim
  · have hpre : '\n' ∉ userTitlePrefix := by decide
    simp [hpre, htrim]

theorem isUserOwnedTitle_userOwnedTitle (title : Text) :
    isUserOwnedTitle (userOwnedTitle title) = true := by
  simp only [userOwnedTitle]
  split_ifs with h
  · exact h
  · rfl

theorem replaceTitle_isLine {title : Text} {lines lines' : List Text} (htitle : '\n' ∉ title)
    (hlines : ∀ line ∈ lines, IsLine line)
    (h : replaceTitle (newTitleLine title) lines = some lines') : ∀ line ∈ lines', IsLine line := by
  obtain ⟨before, old, found, after, rfl, hfound, -, rfl⟩ := replaceTitle_eq_some h
  have hold : IsLine old := hlines old (by simp)
  have hleading : '\n' ∉ found.leading := by
    intro hmem
    exact hold.noNewline (leading_of_line hfound |>.subset hmem)
  intro line hline
  rcases List.mem_append.mp hline with hmem | hmem
  · exact hlines line (List.mem_append_left _ hmem)
  · rcases List.mem_cons.mp hmem with rfl | hafter
    · exact isLine_newTitleLine (leading_blank hfound) hleading htitle
    · exact hlines line (by simp [hafter])

theorem wellFormed_framed {bom : Bool} {eol : LineEnding} {lines : List Text} {body : Text}
    (h : ∀ line ∈ lines, IsLine line) : (ParsedTask.mk bom eol true lines body).WellFormed :=
  ⟨h, fun hplain => absurd hplain (by simp)⟩

theorem wellFormed_applySetTitle {parsed : ParsedTask} {title : Text} (h : parsed.WellFormed)
    (htitle : '\n' ∉ title) : (applySetTitle parsed title).WellFormed := by
  have hnew : IsLine (newTitleLine title) :=
    @isLine_newTitleLine [] title (by simp) (by simp) htitle
  unfold applySetTitle
  split_ifs
  · exact wellFormed_framed (by simp [hnew])
  · exact wellFormed_framed (by simp [hnew])
  · refine wellFormed_framed ?_
    cases hreplaced : replaceTitle (newTitleLine title) parsed.frontmatter with
    | some lines => exact replaceTitle_isLine htitle h.lines hreplaced
    | none =>
      intro line hline
      rcases List.mem_cons.mp hline with rfl | hmem
      · exact hnew
      · exact h.lines line hmem

/-- An append keeps a document well formed when its frontmatter is closed. -/
theorem wellFormed_applyEdit {parsed : ParsedTask} {op : TaskOp} (h : parsed.WellFormed)
    (hop : op.SingleLine)
    (happend : (∃ text, op = .appendBody text) → parsed.hasFrontmatter = true) :
    (applyEdit parsed op).WellFormed := by
  cases op with
  | setTitle title => exact wellFormed_applySetTitle h hop
  | setUserTitle title => exact wellFormed_applySetTitle h (userOwnedTitle_singleLine hop)
  | appendBody text =>
    have hfront : parsed.hasFrontmatter = true := happend ⟨text, rfl⟩
    exact ⟨h.lines, fun hplain => absurd (hfront.symm.trans hplain) (by simp)⟩
  | setBody text => exact ⟨h.lines, fun hplain => absurd hplain (by simp [applyEdit, applySetBody])⟩
  | clean =>
    refine wellFormed_framed fun line hline => ?_
    have hclean : line = newTitleLine "Clean".toList := List.mem_singleton.mp hline
    rw [hclean]
    exact @isLine_newTitleLine [] _ (by simp) (by simp) (by decide)

/-! ### What a request does -/

/-- A request is refused, leaves the document as it was, or puts the edited document in the
file. -/
inductive Handled (file : Option Text) (request : Request) : Prop where
  | refused (outcome : EditOutcome)
      (guarded : guardTitle request.op (readTitle file) = some outcome)
      (answered : documentMachine.answer file request = outcome)
      (kept : documentMachine.next file request = file)
  | noOp (guarded : guardTitle request.op (readTitle file) = none)
      (same : isNoOp request.op (document file) (applyEdit (document file) request.op) = true)
      (answered : documentMachine.answer file request = .noOp)
      (kept : documentMachine.next file request = file)
  | wrote (content : Text) (guarded : guardTitle request.op (readTitle file) = none)
      (differs : isNoOp request.op (document file) (applyEdit (document file) request.op) = true →
        request.op = .clean ∧ request.statusIsReset = false)
      (rendered : content = render (applyEdit (document file) request.op))
      (answered : documentMachine.answer file request = .wrote content)
      (written : documentMachine.next file request = some content)

theorem guardTitle_not_wrote {op : TaskOp} {title : Option Text} {outcome : EditOutcome}
    (h : guardTitle op title = some outcome) : ∀ content, outcome ≠ .wrote content := by
  intro content heq
  rw [heq] at h
  cases op with
  | setTitle wanted =>
    simp only [guardTitle] at h
    split_ifs at h <;> cases h
  | setUserTitle wanted => cases h
  | appendBody text => cases h
  | setBody text => cases h
  | clean => cases h

theorem machine_wrote {file : Option Text} {request : Request} {content : Text}
    (h : outcomeOf request (file.getD []) = .wrote content) :
    documentMachine.answer file request = .wrote content ∧
      documentMachine.next file request = some content := by
  constructor
  · simp only [Machine.answer, documentMachine, h]
  · simp only [Machine.next, documentMachine, h]

theorem machine_kept {file : Option Text} {request : Request} {outcome : EditOutcome}
    (h : outcomeOf request (file.getD []) = outcome) (hno : ∀ content, outcome ≠ .wrote content) :
    documentMachine.answer file request = outcome ∧ documentMachine.next file request = file := by
  cases outcome with
  | wrote content => exact absurd rfl (hno content)
  | noOp =>
    constructor
    · simp only [Machine.answer, documentMachine, h]
    · simp only [Machine.next, documentMachine, h]
  | rejectedUserTitle =>
    constructor
    · simp only [Machine.answer, documentMachine, h]
    · simp only [Machine.next, documentMachine, h]
  | reservedUserTitlePrefix =>
    constructor
    · simp only [Machine.answer, documentMachine, h]
    · simp only [Machine.next, documentMachine, h]

theorem handled (file : Option Text) (request : Request) : Handled file request := by
  have hguarded : guardTitle request.op (readTitle file) =
      guardTitle request.op (titleValueOf (document file)) := by rw [readTitle_eq]
  by_cases hclean : request.op = .clean
  · have hguard : guardTitle request.op (readTitle file) = none := by rw [hclean]; rfl
    have hout : outcomeOf request (file.getD []) =
        if (applyClean (document file)).frontmatter = (document file).frontmatter &&
            (applyClean (document file)).body = (document file).body && request.statusIsReset
          then .noOp else .wrote (render (applyClean (document file))) := by
      rw [outcomeOf, if_pos hclean]
      rfl
    split_ifs at hout with hsame
    · obtain ⟨hanswer, hnext⟩ := machine_kept hout (by simp)
      rw [Bool.and_eq_true] at hsame
      exact .noOp hguard (by rw [hclean]; exact hsame.1) hanswer hnext
    · obtain ⟨hanswer, hnext⟩ := machine_wrote hout
      refine .wrote _ hguard (fun hnoop => ⟨hclean, ?_⟩) (by rw [hclean]; rfl) hanswer hnext
      rw [hclean] at hnoop
      rw [Bool.and_eq_true, not_and] at hsame
      exact Bool.eq_false_iff.mpr (hsame hnoop)
  · have hout : outcomeOf request (file.getD []) = decideEdit request.op (file.getD []) := by
      rw [outcomeOf, if_neg hclean]
    cases hguard : guardTitle request.op (readTitle file) with
    | some refused =>
      have hrefused : outcomeOf request (file.getD []) = refused := by
        rw [hout, decideEdit, ← document, ← hguarded, hguard]
      obtain ⟨hanswer, hnext⟩ := machine_kept hrefused (guardTitle_not_wrote hguard)
      exact .refused refused hguard hanswer hnext
    | none =>
      have hedit : outcomeOf request (file.getD []) =
          if isNoOp request.op (document file) (applyEdit (document file) request.op) then .noOp
          else .wrote (render (applyEdit (document file) request.op)) := by
        rw [hout, decideEdit, ← document, ← hguarded, hguard]
      split_ifs at hedit with hsame
      · obtain ⟨hanswer, hnext⟩ := machine_kept hedit (by simp)
        exact .noOp hguard hsame hanswer hnext
      · obtain ⟨hanswer, hnext⟩ := machine_wrote hedit
        exact .wrote _ hguard (fun hnoop => absurd hnoop hsame) rfl hanswer hnext

/-- What is in the file after a write is what was rendered. -/
theorem document_wrote {file : Option Text} {request : Request} {content : Text}
    (hline : request.op.SingleLine)
    (happend : (∃ text, request.op = .appendBody text) → (document file).hasFrontmatter = true)
    (h : content = render (applyEdit (document file) request.op)) :
    document (some content) = applyEdit (document file) request.op := by
  have hwell : (applyEdit (document file) request.op).WellFormed :=
    wellFormed_applyEdit (wellFormed_parseTask _) hline happend
  rw [h]
  exact parse_render hwell

theorem titleValueOf_applyEdit {parsed : ParsedTask} {op : TaskOp} {title : Text}
    (h : op.title? = some title) : titleValueOf (applyEdit parsed op) = some title := by
  cases op with
  | setTitle wanted =>
    rw [← Option.some.inj h]
    exact titleValueOf_applySetTitle parsed wanted
  | setUserTitle wanted =>
    rw [← Option.some.inj h]
    exact titleValueOf_applySetTitle parsed (userOwnedTitle wanted)
  | clean =>
    rw [← Option.some.inj h]
    rfl
  | appendBody text => cases h
  | setBody text => cases h

theorem title?_not_append {op : TaskOp} {title : Text} (h : op.title? = some title) :
    ¬∃ text, op = .appendBody text := by
  rintro ⟨text, rfl⟩
  cases h

/-- The title line of one document is that of the other with a new value; the rest is the same. -/
structure Retitled (old new : ParsedTask) (title : Text) : Prop where
  body : new.body = old.body
  bom : new.bom = old.bom
  lineEnding : new.lineEnding = old.lineEnding
  lines : (∃ before replaced found after, old.frontmatter = before ++ replaced :: after ∧
      titleLine replaced = some found ∧ (∀ other ∈ before, titleLine other = none) ∧
      new.frontmatter = before ++ (found.leading ++ newTitleLine title) :: after) ∨
    ((∀ other ∈ old.frontmatter, titleLine other = none) ∧
      new.frontmatter = newTitleLine title :: old.frontmatter)

theorem retitled_applySetTitle {parsed : ParsedTask} (h : parsed.WellFormed) (title : Text) :
    Retitled parsed (applySetTitle parsed title) title := by
  unfold applySetTitle
  by_cases hplain : parsed.hasFrontmatter = false
  · obtain ⟨hlines, hending, -, -⟩ := h.plain hplain
    have hnone : ∀ other ∈ parsed.frontmatter, titleLine other = none := by simp [hlines]
    simp only [hplain, Bool.not_false, Bool.true_and, if_true]
    split_ifs with hfresh
    · rw [Bool.and_eq_true, List.isEmpty_iff, Bool.not_eq_true'] at hfresh
      obtain ⟨hbody, hbom⟩ := hfresh
      have hlf : parsed.lineEnding = .lf := by
        rw [hending, hbody]
        rfl
      exact ⟨hbody.symm, hbom.symm, hlf.symm, .inr ⟨hnone, by rw [hlines]⟩⟩
    · exact ⟨rfl, rfl, rfl, .inr ⟨hnone, by rw [hlines]⟩⟩
  · have hfront : parsed.hasFrontmatter = true := by simpa using hplain
    simp only [hfront, Bool.not_true, Bool.false_and, Bool.false_eq_true, if_false]
    cases hreplaced : replaceTitle (newTitleLine title) parsed.frontmatter with
    | none => exact ⟨rfl, rfl, rfl, .inr ⟨replaceTitle_eq_none hreplaced, rfl⟩⟩
    | some lines =>
      obtain ⟨before, replaced, found, after, hold, hfound, hbefore, hnew⟩ :=
        replaceTitle_eq_some hreplaced
      exact ⟨rfl, rfl, rfl, .inl ⟨before, replaced, found, after, hold, hfound, hbefore, hnew⟩⟩

/-- A title that is not refused is the title read from the file from then on, the human's marked
as such. A write changes the title line alone. -/
theorem title_written (file : Option Text) (request : Request) {title : Text}
    (htitle : request.op.title? = some title) (hline : request.op.SingleLine)
    (hallowed : guardTitle request.op (readTitle file) = none) :
    readTitle (documentMachine.next file request) = some title ∧
      (request.op ≠ .clean → document (documentMachine.next file request) = document file ∨
        Retitled (document file) (document (documentMachine.next file request)) title) ∧
      ((∃ wanted, request.op = .setUserTitle wanted) → isUserOwnedTitle title = true) := by
  have howned : (∃ wanted, request.op = .setUserTitle wanted) → isUserOwnedTitle title = true := by
    rintro ⟨wanted, hop⟩
    rw [hop] at htitle
    rw [← Option.some.inj htitle]
    exact isUserOwnedTitle_userOwnedTitle wanted
  have hedit := @titleValueOf_applyEdit (document file) _ _ htitle
  cases handled file request with
  | refused outcome hguard _ _ => rw [hallowed] at hguard; cases hguard
  | noOp _ hsame _ hkept =>
    rw [hkept]
    refine ⟨?_, fun _ => .inl rfl, howned⟩
    rw [readTitle_eq]
    cases hop : request.op with
    | setTitle wanted =>
      rw [hop] at hsame hedit
      exact (of_decide_eq_true hsame).symm.trans hedit
    | setUserTitle wanted =>
      rw [hop] at hsame hedit
      exact (of_decide_eq_true hsame).symm.trans hedit
    | clean =>
      rw [hop] at hsame hedit
      have hlines : (applyClean (document file)).frontmatter = (document file).frontmatter :=
        of_decide_eq_true (Bool.and_eq_true_iff.mp hsame).1
      have htitles : titleValueOf (document file) = titleValueOf (applyClean (document file)) := by
        rw [titleValueOf, titleValueOf, hlines]
      exact htitles.trans hedit
    | appendBody text => rw [hop] at htitle; cases htitle
    | setBody text => rw [hop] at htitle; cases htitle
  | wrote content _ _ hrendered _ hwritten =>
    have hdocument := document_wrote hline (fun h => absurd h (title?_not_append htitle)) hrendered
    rw [hwritten]
    refine ⟨by rw [readTitle_eq, hdocument, hedit], fun hclean => .inr ?_, howned⟩
    rw [hdocument]
    cases hop : request.op with
    | setTitle wanted =>
      rw [hop] at htitle
      rw [← Option.some.inj htitle]
      exact retitled_applySetTitle (wellFormed_parseTask _) wanted
    | setUserTitle wanted =>
      rw [hop] at htitle
      rw [← Option.some.inj htitle]
      exact retitled_applySetTitle (wellFormed_parseTask _) (userOwnedTitle wanted)
    | clean => exact absurd hop hclean
    | appendBody text => rw [hop] at htitle; cases htitle
    | setBody text => rw [hop] at htitle; cases htitle

theorem title_written_quoted :
    readTitle (documentMachine.next none ⟨.setUserTitle "it's on".toList, false⟩) =
        some "USER: it's on".toList ∧
      isUserOwnedTitle "USER: it's on".toList = true :=
  have h := @title_written none ⟨.setUserTitle "it's on".toList, false⟩ "USER: it's on".toList
    (by decide) (show '\n' ∉ "it's on".toList by decide) rfl
  ⟨h.1, h.2.2 ⟨_, rfl⟩⟩

/-! ### Who owns the title -/

def userOwned (file : Option Text) : Bool := (readTitle file).any isUserOwnedTitle

theorem coordinator_singleLine {op : TaskOp} (h : op.FromCoordinator) : op.SingleLine := by
  cases op with
  | setTitle title => exact h
  | setUserTitle title => exact h.elim
  | appendBody text => trivial
  | setBody text => trivial
  | clean => trivial

theorem hasFrontmatter_applySetTitle (parsed : ParsedTask) (title : Text) :
    (applySetTitle parsed title).hasFrontmatter = true := by
  unfold applySetTitle
  split_ifs <;> rfl

/-- One request of a coordinator, on a document with a closed frontmatter. -/
theorem coordinator_step {file : Option Text} {request : Request}
    (hfront : (document file).hasFrontmatter = true) (hcoordinator : request.op.FromCoordinator) :
    (document (documentMachine.next file request)).hasFrontmatter = true ∧
      userOwned (documentMachine.next file request) = userOwned file ∧
      (userOwned file = true → (document (documentMachine.next file request)).frontmatter =
        (document file).frontmatter) ∧
      (userOwned file = true → (∃ title, request.op = .setTitle title) →
        documentMachine.answer file request = .rejectedUserTitle) := by
  have hsameTitle : ∀ {new : ParsedTask} {file' : Option Text}, document file' = new →
      new.frontmatter = (document file).frontmatter → userOwned file' = userOwned file := by
    intro new file' hdocument hlines
    rw [userOwned, userOwned, readTitle_eq, readTitle_eq, hdocument, titleValueOf, titleValueOf,
      hlines]
  have hguarded : userOwned file = true → ∀ title, request.op = .setTitle title →
      guardTitle request.op (readTitle file) = some .rejectedUserTitle := by
    intro howned title hop
    rw [hop]
    exact if_pos howned
  cases handled file request with
  | refused outcome hguard hanswer hkept =>
    rw [hkept]
    refine ⟨hfront, rfl, fun _ => rfl, ?_⟩
    rintro howned ⟨title, hop⟩
    rw [hguarded howned title hop] at hguard
    rw [hanswer, Option.some.inj hguard]
  | noOp hguard _ _ hkept =>
    rw [hkept]
    refine ⟨hfront, rfl, fun _ => rfl, ?_⟩
    rintro howned ⟨title, hop⟩
    rw [hguarded howned title hop] at hguard
    cases hguard
  | wrote content hguard _ hrendered _ hwritten =>
    have hdocument :=
      document_wrote (coordinator_singleLine hcoordinator) (fun _ => hfront) hrendered
    rw [hwritten]
    cases hop : request.op with
    | setTitle title =>
      rw [hop] at hguard hdocument
      have hnot : userOwned file = false ∧ isUserOwnedTitle title = false := by
        rw [guardTitle] at hguard
        split_ifs at hguard with howned htitle
        exact ⟨Bool.eq_false_iff.mpr howned, Bool.eq_false_iff.mpr htitle⟩
      have hnew : userOwned (some content) = false := by
        have hread : readTitle (some content) = some title := by
          rw [readTitle_eq, hdocument]
          exact titleValueOf_applySetTitle _ title
        rw [userOwned, hread]
        exact hnot.2
      have hclosed : (document (some content)).hasFrontmatter = true := by
        rw [hdocument]
        exact hasFrontmatter_applySetTitle _ _
      refine ⟨hclosed, hnew.trans hnot.1.symm, ?_, ?_⟩
      · intro howned
        exact absurd (hnot.1.symm.trans howned) (by simp)
      · intro howned
        exact absurd (hnot.1.symm.trans howned) (by simp)
    | appendBody text =>
      rw [hop] at hdocument
      have hlines : (document (some content)).frontmatter = (document file).frontmatter := by
        rw [hdocument]
        rfl
      refine ⟨by rw [hdocument]; exact hfront, hsameTitle rfl hlines, fun _ => hlines, ?_⟩
      rintro - ⟨title, heq⟩
      cases heq
    | setBody text =>
      rw [hop] at hdocument
      have hlines : (document (some content)).frontmatter = (document file).frontmatter := by
        rw [hdocument]
        rfl
      refine ⟨by rw [hdocument]; rfl, hsameTitle rfl hlines, fun _ => hlines, ?_⟩
      rintro - ⟨title, heq⟩
      cases heq
    | setUserTitle title =>
      rw [hop] at hcoordinator
      exact hcoordinator.elim
    | clean =>
      rw [hop] at hcoordinator
      exact hcoordinator.elim

/-- Whatever coordinators ask for, in any order, a title is the user's afterwards exactly when it
was before. A user's title is then the same, with the whole frontmatter, and every other title
was refused. -/
theorem title_owner_kept {file : Option Text} {requests : List Request}
    (hfront : (document file).hasFrontmatter = true)
    (hcoordinator : ∀ request ∈ requests, request.op.FromCoordinator) :
    userOwned (documentMachine.run file requests) = userOwned file ∧
      (userOwned file = true → readTitle (documentMachine.run file requests) = readTitle file ∧
        (document (documentMachine.run file requests)).frontmatter = (document file).frontmatter ∧
        ∀ pair ∈ requests.zip (documentMachine.answers file requests),
          (∃ title, pair.1.op = .setTitle title) → pair.2 = .rejectedUserTitle) := by
  induction requests generalizing file with
  | nil => exact ⟨rfl, fun _ => ⟨rfl, rfl, by simp⟩⟩
  | cons request requests ih =>
    obtain ⟨hfront', howner, hlines, hrefused⟩ :=
      coordinator_step hfront (hcoordinator request List.mem_cons_self)
    obtain ⟨hrun, hkept⟩ :=
      ih hfront' fun other hmem => hcoordinator other (List.mem_cons_of_mem request hmem)
    refine ⟨hrun.trans howner, fun howned => ?_⟩
    obtain ⟨htitle, hsame, hanswers⟩ := hkept (howner.trans howned)
    have hfirst : readTitle (documentMachine.next file request) = readTitle file := by
      rw [readTitle_eq, readTitle_eq, titleValueOf, titleValueOf, hlines howned]
    refine ⟨htitle.trans hfirst, hsame.trans (hlines howned), fun pair hpair => ?_⟩
    rcases List.mem_cons.mp hpair with rfl | hmem
    · exact hrefused howned
    · exact hanswers pair hmem

/-- An append to a document without a closed frontmatter can bring a title of the user in. -/
example : userOwned (documentMachine.next none
    ⟨.appendBody "---\ntitle: USER: x\n---".toList, false⟩) = true := by decide

theorem title_owner_kept_refused :
    readTitle (documentMachine.run (some "---\ntitle: 'USER: x'\n---\n".toList)
        [⟨.setTitle "y".toList, false⟩, ⟨.setBody "z".toList, false⟩]) =
      readTitle (some "---\ntitle: 'USER: x'\n---\n".toList) :=
  have h := @title_owner_kept (some "---\ntitle: 'USER: x'\n---\n".toList)
    [⟨.setTitle "y".toList, false⟩, ⟨.setBody "z".toList, false⟩] (by decide)
    (by
      intro request hmem
      rcases List.mem_cons.mp hmem with rfl | hmem
      · show '\n' ∉ "y".toList
        decide
      · rw [List.mem_singleton.mp hmem]
        trivial)
  (h.2 (by decide)).1

/-! ### The same request again -/

theorem isNoOp_applyEdit (parsed : ParsedTask) {op : TaskOp}
    (hop : ¬∃ text, op = .appendBody text) :
    isNoOp op (applyEdit parsed op) (applyEdit (applyEdit parsed op) op) = true := by
  have htitles : ∀ title, op.title? = some title →
      titleValueOf (applyEdit (applyEdit parsed op) op) = titleValueOf (applyEdit parsed op) := by
    intro title htitle
    rw [titleValueOf_applyEdit htitle, titleValueOf_applyEdit htitle]
  cases op with
  | setTitle title => exact decide_eq_true (htitles title rfl)
  | setUserTitle title => exact decide_eq_true (htitles _ rfl)
  | appendBody text => exact absurd ⟨text, rfl⟩ hop
  | setBody text => exact decide_eq_true rfl
  | clean => simp [isNoOp, applyEdit, applyClean]

theorem validated_singleLine {title : Text} (h : validateTaskTitle title = .ok ()) :
    '\n' ∉ title := by
  intro hmem
  have hcontrol : (title.any fun c => PtyInput.isControl c && c != '\t') = true :=
    List.any_eq_true.mpr ⟨'\n', hmem, by decide⟩
  rw [validateTaskTitle, if_neg (List.ne_nil_of_mem hmem), if_pos hcontrol] at h
  cases h

theorem render_fresh (title : Text) : render (applySetTitle (document none) title) =
    delimiter ++ ['\n'] ++ (newTitleLine title ++ ['\n']) ++ delimiter ++ ['\n'] := by
  have hnone : document none = ⟨false, .lf, false, [], []⟩ := by decide
  have hset : applySetTitle ⟨false, .lf, false, [], []⟩ title =
      ⟨false, .lf, true, [newTitleLine title], []⟩ := rfl
  rw [hnone, hset]
  generalize newTitleLine title = line
  simp [render, renderPeeled, LineEnding.text]

/-- The document of a room whose title is not blank. -/
theorem buildTaskContent_eq {title : Text} (h : trim title ≠ []) :
    buildTaskContent title = render (applySetTitle (document none) (userOwnedTitle title)) := by
  have hopen : "---\ntitle: '".toList = delimiter ++ ['\n'] ++ "title: '".toList := by decide
  have hclose : "'\n---\n".toList = ['\''] ++ ['\n'] ++ delimiter ++ ['\n'] := by decide
  rw [render_fresh, buildTaskContent, if_neg h, hopen, hclose]
  unfold newTitleLine
  generalize "title: '".toList = key
  generalize delimiter = fence
  simp only [List.append_assoc]

theorem step_setUserTitle_none (title : Text) (reset : Bool) :
    documentMachine.step none ⟨.setUserTitle title, reset⟩ =
      (some (render (applySetTitle (document none) (userOwnedTitle title))),
        .wrote (render (applySetTitle (document none) (userOwnedTitle title)))) := by
  have hempty : titleValueOf (document none) = none := by decide
  cases handled none ⟨.setUserTitle title, reset⟩ with
  | refused _ hguard _ _ => cases hguard
  | noOp _ hsame _ _ =>
    have htitles : titleValueOf (applySetTitle (document none) (userOwnedTitle title)) =
        titleValueOf (document none) := of_decide_eq_true hsame
    rw [hempty] at htitles
    exact absurd ((titleValueOf_applySetTitle _ _).symm.trans htitles) (by simp)
  | wrote content _ _ hrendered hanswer hwritten =>
    rw [hrendered] at hanswer hwritten
    exact Prod.ext hwritten hanswer

/-- A new room's document is the one the same title, or a clean where there is none, would put in
an absent file: the title is read back from it and its frontmatter is closed. -/
theorem initial_content {taskTitle content : Text}
    (h : prepareNewRoomTaskContent taskTitle = .ok content) :
    documentMachine.step none
        ⟨if trim taskTitle = [] then .clean else .setUserTitle (trim taskTitle), false⟩ =
      (some content, .wrote content) ∧
    readTitle (some content) =
      some (if trim taskTitle = [] then "Clean".toList else userOwnedTitle (trim taskTitle)) ∧
    (document (some content)).hasFrontmatter = true := by
  by_cases hblank : trim taskTitle = []
  · have hcontent : content = "---\ntitle: 'Clean'\n---\n".toList := by
      simp only [prepareNewRoomTaskContent, hblank] at h
      exact (Except.ok.inj h).symm
    rw [if_pos hblank, if_pos hblank, hcontent]
    exact ⟨by decide, by decide, by decide⟩
  · have hvalid : validateTaskTitle (trim taskTitle) = .ok () ∧
        content = buildTaskContent (trim taskTitle) := by
      simp only [prepareNewRoomTaskContent] at h
      rw [if_pos hblank] at h
      cases hcheck : validateTaskTitle (trim taskTitle) with
      | error message => rw [hcheck] at h; cases h
      | ok u =>
        rw [hcheck] at h
        exact ⟨rfl, (Except.ok.inj h).symm⟩
    have hagain : trim (trim taskTitle) ≠ [] := by rwa [trim_trim]
    have hline : (TaskOp.setUserTitle (trim taskTitle)).SingleLine := validated_singleLine hvalid.1
    have hstep := step_setUserTitle_none (trim taskTitle) false
    rw [← buildTaskContent_eq hagain, ← hvalid.2] at hstep
    have hread := (title_written none ⟨.setUserTitle (trim taskTitle), false⟩ rfl hline rfl).1
    have hdocument := @document_wrote none ⟨.setUserTitle (trim taskTitle), false⟩ _ hline
      (by rintro ⟨text, heq⟩; cases heq) (hvalid.2.trans (buildTaskContent_eq hagain))
    rw [Machine.next, hstep] at hread
    rw [if_neg hblank, if_neg hblank, hdocument]
    exact ⟨hstep, hread, hasFrontmatter_applySetTitle _ _⟩

theorem initial_content_plan :
    readTitle (some "---\ntitle: 'USER: Plan'\n---\n".toList) = some "USER: Plan".toList := by
  have h := (@initial_content "Plan".toList "---\ntitle: 'USER: Plan'\n---\n".toList rfl).2.1
  rw [h, if_neg (by decide)]
  decide

end AgentsCommander.Tasks
