import DesignTokens.Proofs.Workspace.Snapshots

/-!
# Snapshots and their files

A snapshot keeps what it has read, and goes on with the variables that it has saved last, wherever
they have been saved (`Operation.current_run`).  A snapshot that is opened anew has the variables
that have been saved last to its own file, or none after an attempt to save something broken there,
which empties the file.  The two agree as long as nothing is saved to another file and nothing in
the file is broken.
-/

namespace DesignTokens.Snapshot

/-! ## Variables of a snapshot -/

/-- The variables that a snapshot answers with. -/
def current (w : Workspace) (s : Snapshot) : Except Fault (List Variable) :=
  (s.getVariables w).map (·.1)

section current

variable {w w' : Workspace} {s s' : Snapshot} {vars : List Variable}

/-- Known variables are answered. -/
lemma current_of_known (h : s.vars = some vars) : s.current w = .ok vars := by
  unfold current getVariables
  rw [h]
  rfl

/-- Variables that are not known are those of the content. -/
lemma current_of_unknown (h : s.vars = none) :
    s.current w = (s.getContent w).map (·.1) >>= s.readVariables := by
  unfold current getVariables
  rw [h]
  dsimp only
  cases hcontent : s.getContent w with
  | error e => rfl
  | ok r =>
    obtain ⟨fields, s₁⟩ := r
    have hpath : s₁.readVariables fields = s.readVariables fields := by
      unfold readVariables readSection fault
      rw [path_of_getContent hcontent]
    show ((s₁.readVariables fields) >>= _).map _ = s.readVariables fields
    rw [hpath]
    cases s.readVariables fields <;> rfl

/-- Where nothing is known, the content is that of the file. -/
lemma getContent_of_unknown (h : s.content = none) :
    (s.getContent w).map (·.1) = s.readContent w := by
  unfold getContent
  rw [h]
  cases s.readContent w <;> rfl

/-- Known content is used. -/
lemma getContent_of_known {fields : Json.Fields} (h : s.content = some fields) :
    (s.getContent w).map (·.1) = .ok fields := by
  unfold getContent
  rw [h]
  rfl

/-- Once the content is known, the files do not matter. -/
lemma current_of_content {fields : Json.Fields} (h : s.content = some fields) (w w' : Workspace) :
    s.current w' = s.current w := by
  cases hvars : s.vars with
  | some vars => rw [current_of_known hvars, current_of_known hvars]
  | none =>
    rw [current_of_unknown hvars, current_of_unknown hvars, getContent_of_known h,
      getContent_of_known h]

/-- A snapshot that has just been opened answers with what is in its file. -/
lemma current_atPath (w : Workspace) (path : String) :
    (atPath path).current w = (atPath path).readContent w >>= (atPath path).readVariables := by
  rw [current_of_unknown rfl, getContent_of_unknown rfl]

/-- What is read from a file depends on its path alone. -/
lemma readContent_of_path (h : s'.path = s.path) : s'.readContent w = s.readContent w := by
  unfold readContent fault
  rw [h]

end current

/-! ## Learning -/

/-- A snapshot has read something more of its file, and nothing else has happened to it. -/
structure Learns (w : Workspace) (s s' : Snapshot) : Prop where
  path : s'.path = s.path
  content : s'.content = s.content ∨
    s.content = none ∧ ∃ fields, s.readContent w = .ok fields ∧ s'.content = some fields
  vars : s'.vars = s.vars ∨ ∃ vars, s.current w = .ok vars ∧ s'.vars = some vars

section learns

variable {w : Workspace} {s s' : Snapshot}

/-- What a snapshot has learnt does not change the content that it uses. -/
lemma Learns.getContent_eq (h : Learns w s s') :
    (s'.getContent w).map (·.1) = (s.getContent w).map (·.1) := by
  rcases h.content with hcontent | ⟨hnone, fields, hfile, hcontent⟩
  · cases hknown : s.content with
    | some fields =>
      rw [getContent_of_known hknown, getContent_of_known (hcontent.trans hknown)]
    | none =>
      rw [getContent_of_unknown hknown, getContent_of_unknown (hcontent.trans hknown),
        readContent_of_path h.path]
  · rw [getContent_of_known hcontent, getContent_of_unknown hnone, hfile]

/-- What a snapshot has learnt does not change its answer. -/
theorem Learns.current_eq (h : Learns w s s') : s'.current w = s.current w := by
  rcases h.vars with hvars | ⟨vars, hcurrent, hvars⟩
  · cases hknown : s.vars with
    | some vars =>
      rw [current_of_known hknown, current_of_known (hvars.trans hknown)]
    | none =>
      have hread : s'.readVariables = s.readVariables := by
        unfold readVariables readSection fault
        rw [h.path]
      rw [current_of_unknown hknown, current_of_unknown (hvars.trans hknown), hread,
        h.getContent_eq]
  · rw [hcurrent, current_of_known hvars]

/-- What a snapshot has learnt can be stored. -/
lemma Learns.isStorable (h : Learns w s s') (hs : s.IsStorable) : s'.IsStorable := by
  rcases h.content with hcontent | ⟨-, fields, hread, hcontent⟩
  · unfold IsStorable
    rw [hcontent]
    exact hs
  · intro found hfound
    rw [hcontent] at hfound
    cases hfound
    exact isStorable_of_readContent hread

/-- Asking for the content, a snapshot learns it. -/
lemma learns_of_getContent {fields : Json.Fields}
    (h : s.getContent w = .ok (fields, s')) : Learns w s s' := by
  rcases getContent_eq_ok.mp h with ⟨-, rfl⟩ | ⟨hnone, hread, rfl⟩
  · exact ⟨rfl, Or.inl rfl, Or.inl rfl⟩
  · exact ⟨rfl, Or.inr ⟨hnone, fields, hread, rfl⟩, Or.inl rfl⟩

/-- Asking for the variables, a snapshot learns them. -/
lemma learns_of_getVariables {vars : List Variable} (h : s.getVariables w = .ok (vars, s')) :
    Learns w s s' := by
  have hcurrent : s.current w = .ok vars := by
    unfold current
    rw [h]
    rfl
  rcases getVariables_eq_ok.mp h with ⟨-, rfl⟩ | ⟨fields, s₁, -, hcontent, -, rfl⟩
  · exact ⟨rfl, Or.inl rfl, Or.inl rfl⟩
  · obtain ⟨hpath, hlearnt, -⟩ := learns_of_getContent hcontent
    exact ⟨hpath, hlearnt, Or.inr ⟨vars, hcurrent, rfl⟩⟩

/-- Asking for the collections, a snapshot learns them. -/
lemma learns_of_getCollections {collections : List Collection}
    (h : s.getCollections w = .ok (collections, s')) : Learns w s s' := by
  unfold getCollections at h
  split at h
  · cases h
    exact ⟨rfl, Or.inl rfl, Or.inl rfl⟩
  · obtain ⟨⟨fields, s₁⟩, hcontent, h⟩ := bind_eq_ok.mp h
    obtain ⟨found, -, h⟩ := bind_eq_ok.mp h
    cases h
    obtain ⟨hpath, hlearnt, hvars⟩ := learns_of_getContent hcontent
    exact ⟨hpath, hlearnt, hvars⟩

/-- Asking for the styles, a snapshot learns them. -/
lemma learns_of_getStyles {styles : Styles} (h : s.getStyles w = .ok (styles, s')) :
    Learns w s s' := by
  unfold getStyles at h
  split at h
  · cases h
    exact ⟨rfl, Or.inl rfl, Or.inl rfl⟩
  · obtain ⟨⟨fields, s₁⟩, hcontent, h⟩ := bind_eq_ok.mp h
    obtain ⟨found, -, h⟩ := bind_eq_ok.mp h
    cases h
    obtain ⟨hpath, hlearnt, hvars⟩ := learns_of_getContent hcontent
    exact ⟨hpath, hlearnt, hvars⟩

/-- Asking for the file name, a snapshot learns its content. -/
lemma learns_of_getFileName {name : String} (h : s.getFileName w = .ok (name, s')) :
    Learns w s s' := by
  obtain ⟨⟨fields, s₁⟩, hcontent, h⟩ := bind_eq_ok.mp h
  dsimp only at h
  split at h
  · cases h
    exact learns_of_getContent hcontent
  · cases h

end learns

/-! ## Operations -/

/-- What is asked of a snapshot. -/
inductive Operation where
  | askName
  | askVariables
  | askCollections
  | askStyles
  | save (vars : List Variable) (path : Option String)

namespace Operation

/-- The files and the snapshot after a question that has been answered or not. -/
def asked (w : Workspace) (s : Snapshot) : Except Fault Snapshot → Workspace × Snapshot
  | .ok s' => (w, s')
  | .error _ => (w, s)

/-- The files and the snapshot after an operation, whether it ends well or not. -/
def step (state : Workspace × Snapshot) : Operation → Workspace × Snapshot
  | askName => asked state.1 state.2 ((state.2.getFileName state.1).map (·.2))
  | askVariables => asked state.1 state.2 ((state.2.getVariables state.1).map (·.2))
  | askCollections => asked state.1 state.2 ((state.2.getCollections state.1).map (·.2))
  | askStyles => asked state.1 state.2 ((state.2.getStyles state.1).map (·.2))
  | save vars path => (state.2.save state.1 vars path).2

/-- The files and the snapshot after some operations. -/
def run (ops : List Operation) (state : Workspace × Snapshot) : Workspace × Snapshot :=
  ops.foldl step state

/-- The modes and the platforms of the variables that are saved are pairwise different. -/
def IsKeyed : Operation → Prop
  | save vars _ => ∀ v ∈ vars, v.IsKeyed
  | _ => True

/-- Nothing is saved to a file other than the one at a path. -/
def StaysAt (w : Workspace) (path : String) : Operation → Prop
  | save _ (some target) => w.key target = w.key path
  | _ => True

/-- A path leads to the file at another path. -/
def leadsTo (w : Workspace) (path target : String) : Bool :=
  decide (w.key target = w.key path)

/-! ## What has been saved -/

/-- The variables that an operation saves, to whatever file, or those before. -/
def savedOr (state : Workspace × Snapshot) (before : List Variable) : Operation → List Variable
  | save vars target =>
    match (state.2.save state.1 vars target).1 with
    | .ok _ => vars
    | .error _ => before
  | _ => before

/-- What the file at a path holds after an operation: the variables that are saved to it, nothing
that can be read if these are not to be saved with something broken, and otherwise what it held
before. -/
def filedOr (w : Workspace) (path : String) (state : Workspace × Snapshot)
    (before : Except Fault (List Variable)) : Operation → Except Fault (List Variable)
  | save vars target =>
    if leadsTo w path (target.getD state.2.path) then
      match (state.2.save state.1 vars target).1 with
      | .ok _ => .ok vars
      | .error fault =>
        if fault = .file .brokenText then (atPath path).fault .invalidJson else before
    else before
  | _ => before

/-- The variables that have been saved last, or those before. -/
def lastSaved : List Operation → Workspace × Snapshot → List Variable → List Variable
  | [], _, before => before
  | op :: rest, state, before => lastSaved rest (op.step state) (op.savedOr state before)

/-- What the file at a path holds after some operations. -/
def lastFiled (w : Workspace) (path : String) : List Operation → Workspace × Snapshot →
    Except Fault (List Variable) → Except Fault (List Variable)
  | [], _, before => before
  | op :: rest, state, before =>
    lastFiled w path rest (op.step state) (op.filedOr w path state before)

/-- Variables that have been saved are the ones that have been saved last. -/
lemma savedOr_save {w : Workspace} {s : Snapshot} {vars : List Variable} {target : Option String}
    {next : Workspace × Snapshot} (h : s.save w vars target = (.ok (), next))
    (before : List Variable) : savedOr (w, s) before (save vars target) = vars := by
  unfold savedOr
  dsimp only
  rw [h]

/-- Asking after an operation changes nothing of what has been saved last. -/
lemma lastSaved_askVariables (op : Operation) (state : Workspace × Snapshot)
    (before : List Variable) :
    lastSaved [op, .askVariables] state before = op.savedOr state before :=
  rfl

/-- Asking after an operation changes nothing of what a file holds. -/
lemma lastFiled_askVariables (w : Workspace) (path : String) (op : Operation)
    (state : Workspace × Snapshot) (before : Except Fault (List Variable)) :
    lastFiled w path [op, .askVariables] state before = op.filedOr w path state before :=
  rfl

/-- An operation saves, or the snapshot learns from it. -/
lemma step_cases (op : Operation) (w : Workspace) (s : Snapshot) :
    (∃ vars path, op = save vars path) ∨
      (∃ s', op.step (w, s) = (w, s') ∧ Learns w s s') ∧ ∀ vars path, op ≠ save vars path := by
  have hstays : Learns w s s := ⟨rfl, Or.inl rfl, Or.inl rfl⟩
  have hasked : ∀ {α : Type} (r : Except Fault (α × Snapshot)),
      (∀ a s', r = .ok (a, s') → Learns w s s') →
        ∃ s', asked w s (r.map (·.2)) = (w, s') ∧ Learns w s s' := by
    intro α r hr
    cases r with
    | error fault => exact ⟨s, rfl, hstays⟩
    | ok found => exact ⟨found.2, rfl, hr found.1 found.2 rfl⟩
  cases op with
  | save vars path => exact Or.inl ⟨vars, path, rfl⟩
  | askName => exact Or.inr ⟨hasked _ fun _ _ => learns_of_getFileName, nofun⟩
  | askVariables => exact Or.inr ⟨hasked _ fun _ _ => learns_of_getVariables, nofun⟩
  | askCollections => exact Or.inr ⟨hasked _ fun _ _ => learns_of_getCollections, nofun⟩
  | askStyles => exact Or.inr ⟨hasked _ fun _ _ => learns_of_getStyles, nofun⟩

/-! ## What a run preserves -/

/-- A snapshot of the file at a path answers with some variables, the file holds others, and the
other fields are always the same. -/
structure Holds (w : Workspace) (path : String) (rest : Json.Fields) (held : List Variable)
    (filed : Except Fault (List Variable)) (state : Workspace × Snapshot) : Prop where
  root : state.1.root = w.root
  place : state.2.path = PathText.normal path
  storable : state.2.IsStorable
  content : ∃ fields s, state.2.getContent state.1 = .ok (fields, s) ∧ others fields = rest
  held : state.2.current state.1 = .ok held
  present : ∃ text, state.1.read (atPath path).path = .ok text
  filed : (atPath path).current state.1 = filed

section preserved

variable {w : Workspace} {path : String} {rest : Json.Fields} {held : List Variable}
  {filed : Except Fault (List Variable)} {state : Workspace × Snapshot}

/-- Places are those seen from the first directory. -/
lemma Holds.key_eq (h : Holds w path rest held filed state) (p : String) :
    state.1.key p = w.key p := by
  unfold Workspace.key
  rw [h.root]

/-- Storing a text that has no carriage returns leaves the file at a path there. -/
lemma exists_read_store {w : Workspace} {opened target text : String}
    (h : ∃ found, w.read opened = .ok found) (htext : '\r' ∉ text.toList) :
    ∃ found, (w.store target text).read opened = .ok found := by
  by_cases hkey : w.key opened = w.key target
  · exact ⟨text, Workspace.read_store hkey htext⟩
  · obtain ⟨found, hfound⟩ := h
    exact ⟨found, Workspace.read_store_of_ne hkey hfound⟩

/-- What the file at a path holds after another text has been stored: what is read from the text,
if the text has been stored there. -/
lemma Holds.current_store (h : Holds w path rest held filed state) (target text : String) :
    (atPath path).current (state.1.store target text) =
      if leadsTo w path target then
        (atPath path).readContent (state.1.store target text) >>= (atPath path).readVariables
      else filed := by
  unfold leadsTo
  split_ifs with hown
  · exact current_atPath _ path
  · have hne : state.1.key (atPath path).path ≠ state.1.key target := by
      intro heq
      rw [key_atPath, h.key_eq, h.key_eq] at heq
      exact hown (decide_eq_true heq.symm)
    obtain ⟨found, hfound⟩ := h.present
    rw [current_atPath, readContent_store_of_ne hne hfound, ← current_atPath]
    exact h.filed

/-- A path that leads to the file is the same place as that of a snapshot opened there. -/
lemma Holds.key_atPath_of_leadsTo (h : Holds w path rest held filed state) {target : String}
    (hown : leadsTo w path target = true) : state.1.key (atPath path).path = state.1.key target := by
  rw [key_atPath, h.key_eq, h.key_eq]
  exact (of_decide_eq_true hown).symm

/-- A snapshot answers with the variables that it has saved, and its file holds them if they have
been saved there; where something is broken, the snapshot stays, but not the file. -/
lemma Holds.save (h : Holds w path rest held filed state) {vars : List Variable}
    (hvars : ∀ v ∈ vars, v.IsKeyed) (target : Option String) :
    Holds w path rest ((save vars target).savedOr state held)
      ((save vars target).filedOr w path state filed) ((save vars target).step state) := by
  obtain ⟨fields, s₁, hcontent, hrest⟩ := h.content
  have hlearns := learns_of_getContent hcontent
  have hknown := content_of_getContent hcontent
  have hplace : s₁.path = PathText.normal path := hlearns.path.trans h.place
  have hreturn : '\r' ∉ "".toList := by decide
  unfold step savedOr filedOr
  dsimp only
  rcases save_cases h.storable hcontent hvars target with
    ⟨fault, hne, -, hsave⟩ | ⟨-, entries, hwhole, hentries, hsave⟩ | ⟨-, hsave⟩
  · rw [hsave]
    dsimp only
    rw [if_neg hne, ite_self]
    exact ⟨h.root, hplace, hlearns.isStorable h.storable,
      ⟨fields, s₁, getContent_eq_ok.mpr (Or.inl ⟨hknown, rfl⟩), hrest⟩,
      hlearns.current_eq.trans h.held, h.present, h.filed⟩
  · rw [hsave]
    dsimp only
    have htext : '\r' ∉ (fileText entries).toList := return_not_mem_fileText entries
    refine ⟨h.root, hplace, ?_, ⟨_, _, getContent_eq_ok.mpr (Or.inl ⟨rfl, rfl⟩), ?_⟩,
      current_of_known rfl, exists_read_store h.present htext, ?_⟩
    · rintro found ⟨⟩
      exact isStorable_withVariables (isStorable_of_getContent h.storable hcontent) hvars
    · exact (others_withVariables vars fields).trans hrest
    · rw [h.current_store]
      split_ifs with hown
      · rw [bind_of_ok (readContent_store (h.key_atPath_of_leadsTo hown) hentries), ← hwhole]
        exact readVariables_withVariables _ vars fields
      · rfl
  · rw [hsave]
    dsimp only
    rw [if_pos rfl]
    refine ⟨h.root, hplace, hlearns.isStorable h.storable,
      ⟨fields, s₁, getContent_eq_ok.mpr (Or.inl ⟨hknown, rfl⟩), hrest⟩, ?_,
      exists_read_store h.present hreturn, ?_⟩
    · rw [current_of_content hknown state.1, hlearns.current_eq]
      exact h.held
    · rw [h.current_store]
      split_ifs with hown
      · rw [readContent_store_empty (h.key_atPath_of_leadsTo hown)]
        rfl
      · rfl

/-- One operation changes what a snapshot answers with, and what its file holds, only by saving. -/
theorem Holds.step (h : Holds w path rest held filed state) {op : Operation} (hop : op.IsKeyed) :
    Holds w path rest (op.savedOr state held) (op.filedOr w path state filed) (op.step state) := by
  rcases op.step_cases state.1 state.2 with ⟨vars, target, rfl⟩ | ⟨⟨s', hstep, hlearns⟩, hask⟩
  · exact h.save hop target
  · have hsaved : op.savedOr state held = held := by
      cases op with
      | save vars target => exact absurd rfl (hask vars target)
      | askName | askVariables | askCollections | askStyles => rfl
    have hfiled : op.filedOr w path state filed = filed := by
      cases op with
      | save vars target => exact absurd rfl (hask vars target)
      | askName | askVariables | askCollections | askStyles => rfl
    obtain ⟨fields, s, hcontent, hrest⟩ := h.content
    have hsame : (s'.getContent state.1).map (·.1) = .ok fields := by
      rw [hlearns.getContent_eq, hcontent]
      rfl
    obtain ⟨⟨found, s₁⟩, hfound, rfl⟩ := map_eq_ok.mp hsame
    have hstate : op.step state = (state.1, s') := hstep
    rw [hsaved, hfiled, hstate]
    exact ⟨h.root, hlearns.path.trans h.place, hlearns.isStorable h.storable,
      ⟨found, s₁, hfound, hrest⟩, hlearns.current_eq.trans h.held, h.present, h.filed⟩

/-- A run changes what a snapshot answers with, and what its file holds, only by saving. -/
theorem Holds.run (h : Holds w path rest held filed state) {ops : List Operation}
    (hops : ∀ op ∈ ops, op.IsKeyed) :
    Holds w path rest (lastSaved ops state held) (lastFiled w path ops state filed)
      (Operation.run ops state) := by
  induction ops generalizing state held filed with
  | nil => exact h
  | cons op more ih =>
    exact ih (h.step (hops op List.mem_cons_self)) fun op' hop' =>
      hops op' (List.mem_cons_of_mem _ hop')

/-- Where nothing is saved to another file and nothing is broken, an operation leaves in the file
what it leaves in the snapshot. -/
lemma filedOr_of_staysAt (h : Holds w path rest held filed state) (hrest : rest.isIntact = true)
    {op : Operation} (hop : op.IsKeyed) (hstays : op.StaysAt w path) (before : List Variable) :
    op.filedOr w path state (.ok before) = .ok (op.savedOr state before) := by
  cases op with
  | askName | askVariables | askCollections | askStyles => rfl
  | save vars target =>
    have hown : leadsTo w path (target.getD state.2.path) = true := by
      refine decide_eq_true ?_
      cases target with
      | none => exact h.place ▸ Workspace.key_normal w path
      | some other => exact hstays
    obtain ⟨fields, s₁, hcontent, rfl⟩ := h.content
    unfold filedOr savedOr
    dsimp only
    rw [if_pos hown]
    rcases save_cases h.storable hcontent hop target with
      ⟨fault, hne, -, hsave⟩ | ⟨-, entries, -, -, hsave⟩ | ⟨hbroken, -⟩
    · rw [hsave]
      exact if_neg hne
    · rw [hsave]
    · exact Bool.noConfusion (hrest.symm.trans hbroken)

/-- Where nothing is saved to another file and nothing is broken, the file holds the variables that
have been saved last. -/
lemma lastFiled_of_staysAt (h : Holds w path rest held filed state) (hrest : rest.isIntact = true)
    {ops : List Operation} (hops : ∀ op ∈ ops, op.IsKeyed)
    (hstays : ∀ op ∈ ops, op.StaysAt w path) (before : List Variable) :
    lastFiled w path ops state (.ok before) = .ok (lastSaved ops state before) := by
  induction ops generalizing state held filed before with
  | nil => rfl
  | cons op more ih =>
    have hop := hops op List.mem_cons_self
    unfold lastFiled lastSaved
    rw [filedOr_of_staysAt h hrest hop (hstays op List.mem_cons_self)]
    exact ih (h.step hop) (fun op' hop' => hops op' (List.mem_cons_of_mem _ hop'))
      (fun op' hop' => hstays op' (List.mem_cons_of_mem _ hop')) _

end preserved

/-- After every run on a snapshot whose file can be read, the snapshot answers with the variables
that it has saved last, to whatever file.  A snapshot that is opened at the same path answers with
those that have been saved last to this file, and with a fault once something broken was to be saved
there.  The two answer the same where nothing is saved to another file and nothing but the variables
of the file is broken. -/
theorem current_run {w : Workspace} {path : String} {vars : List Variable}
    (h : (atPath path).current w = .ok vars) {ops : List Operation}
    (hops : ∀ op ∈ ops, op.IsKeyed) :
    let state := run ops (w, atPath path)
    state.2.current state.1 = .ok (lastSaved ops (w, atPath path) vars) ∧
      (atPath path).current state.1 = lastFiled w path ops (w, atPath path) (.ok vars) ∧
      ∃ fields, (atPath path).readContent w = .ok fields ∧
        ((∀ op ∈ ops, op.StaysAt w path) → (others fields).isIntact = true →
          state.2.current state.1 = (atPath path).current state.1) := by
  obtain ⟨fields, hread, -⟩ := bind_eq_ok.mp ((current_atPath w path).symm.trans h)
  obtain ⟨text, htext, -⟩ := readContent_eq_ok.mp hread
  have hstart : Holds w path (others fields) vars (.ok vars) (w, atPath path) :=
    ⟨rfl, rfl, isStorable_atPath path,
      ⟨fields, _, getContent_eq_ok.mpr (Or.inr ⟨rfl, hread, rfl⟩), rfl⟩, h, ⟨text, htext⟩, h⟩
  have hrun := hstart.run hops
  refine ⟨hrun.held, hrun.filed, fields, hread, fun hstays hintact => ?_⟩
  rw [hrun.held, hrun.filed, lastFiled_of_staysAt hstart hintact hops hstays vars]

/-- A snapshot that has saved no variables to another file answers with none, while its own file
still holds one. -/
theorem current_run_copy :
    let base : Variable := { id := "v", name := "base", type := .text, collectionId := "c" }
    let w := ({ root := "/work" } : Workspace).store "kit.json"
      (fileText [("variables", .list [base.toJson])])
    ∃ w' s, run [.save [] (some "copy.json"), .askVariables] (w, atPath "kit.json") = (w', s) ∧
      s.current w' = .ok [] ∧ (atPath "kit.json").current w' = .ok [base] := by
  intro base w
  have hbase : base.IsKeyed := ⟨List.nodup_nil, List.nodup_nil⟩
  have hfile : (Json.object [("variables", .list [base.toJson])]).IsStorable :=
    Json.isStorable_object.mpr ⟨by decide, List.forall_mem_singleton.mpr
      (Json.isStorable_list.mpr (List.forall_mem_singleton.mpr (Variable.isStorable_toJson hbase)))⟩
  have hcontent : (atPath "kit.json").readContent w =
      .ok (.ofIntact [("variables", .list [base.toJson])]) :=
    readContent_store (key_atPath _ "kit.json") hfile
  have hread : (atPath "kit.json").current w = .ok [base] := by
    rw [current_atPath, bind_of_ok hcontent]
    exact readVariables_withVariables _ [base] {}
  have hkeyed : ∀ op ∈ [Operation.save [] (some "copy.json"), .askVariables], op.IsKeyed := by
    intro op hop
    rcases List.mem_cons.mp hop with rfl | hrest
    · exact fun v hv => (List.not_mem_nil hv).elim
    · rw [List.mem_singleton.mp hrest]
      trivial
  have hsaved : ∃ next, (atPath "kit.json").save w [] (some "copy.json") = (.ok (), next) := by
    have hknown : (atPath "kit.json").getContent w =
        .ok (.ofIntact [("variables", .list [base.toJson])], _) :=
      getContent_eq_ok.mpr (Or.inr ⟨rfl, hcontent, rfl⟩)
    obtain ⟨w', s', hsave, -⟩ :=
      (@getVariables_save w _ _ [] (some "copy.json") (isStorable_atPath "kit.json") _ hknown
        (fun v hv => (List.not_mem_nil hv).elim) (by decide) (by decide)).1 rfl
    exact ⟨(w', s'), hsave⟩
  obtain ⟨next, hsave⟩ := hsaved
  have hother : leadsTo w "kit.json" "copy.json" = false := by decide
  have hlast := savedOr_save hsave [base]
  have hkept : filedOr w "kit.json" (w, atPath "kit.json") (.ok [base])
      (.save [] (some "copy.json")) = .ok [base] :=
    if_neg (by rw [Option.getD_some, hother]; decide)
  obtain ⟨hheld, hfiled, -⟩ := current_run hread hkeyed
  rw [lastSaved_askVariables, hlast] at hheld
  rw [lastFiled_askVariables, hkept] at hfiled
  exact ⟨_, _, Prod.mk.eta.symm, hheld, hfiled⟩

end Operation

end DesignTokens.Snapshot
