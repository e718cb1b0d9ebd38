import RespMux.Proofs.RawChoices
import RespMux.Proofs.Routing
import RespMux.Proofs.Routing.Tracking

/-!
# No choice of a database in vain

The pump puts a choice of a database in front of a command that is for another database than the
tracked one, and nowhere else. `Store.Script` is the grammar of what it writes: commands that need
no choice, commands with the choice that they need, and the two ends of a block. Each thing that the
pump writes follows it (`Dispatches.script`, `Layout.script`), so everything that has been written
does (`run_scripted`).

The rest is about the grammar only. What is tracked agrees with a server that runs every block
(`Store.Script.agrees`), so a choice takes the server from one database to another, unless the
database is unknown; and unknown it is only after a block with a switch, until the next command that
is for some database (`Store.Script.forgotten`).
-/

set_option autoImplicit false

namespace RespMux

namespace Store

variable {s s' : Store} {owned owned' : List MessageId} {f g : InFlight} {fs : List InFlight}
variable {t : Belief} {c : Sent}

theorem sent_concat (h : s.sent? f = some c) (fs : List InFlight) :
    s.sent (fs ++ [f]) = s.sent fs ++ [c] := by
  rw [sent_append, sent_singleton h]

theorem targetOf_of_sent? (h : s.sent? f = some c) : s.targetOf f = c.target := by
  obtain ⟨frame, -, rfl⟩ := Option.map_eq_some_iff.mp h
  rfl

/-- The frame is for a message of a caller, as it is or in an envelope. -/
def Calls (s : Store) (owned : List MessageId) (f : InFlight) : Prop :=
  ∃ id ∈ owned, f = .message id ∨ ∃ x, f = .message x ∧ s.IsEnvelope x id

theorem Calls.mono (h : s.Calls owned f) (hgrows : s.Grows s') (howned : owned ⊆ owned') :
    s'.Calls owned' f := by
  obtain ⟨id, hid, hf⟩ := h
  refine ⟨id, howned hid, hf.imp_right ?_⟩
  rintro ⟨x, rfl, hx⟩
  exact ⟨x, rfl, hgrows.isEnvelope hx⟩

/-! ## The grammar of what is written -/

/-- The frames are what the pump writes for the messages `owned` of callers, and `t` is what is
known after them. -/
inductive Script (s : Store) (owned : List MessageId) : List InFlight → Belief → Prop where
  | start : Script s owned [] {}
  /-- a block begins -/
  | opens {fs : List InFlight} {t : Belief} {f : InFlight} (rest : Script s owned fs t)
      (ht : t.block = none) (hf : s.sent? f = some Request.multi.sent) :
      Script s owned (fs ++ [f]) (t.hear Request.multi.sent)
  /-- a block ends -/
  | closes {fs : List InFlight} {t : Belief} {switched : Bool} (b : Block)
      (rest : Script s owned fs t) (ht : t.block = some switched) :
      Script s owned (fs ++ [.exec b]) (t.hear ⟨⟨.exec, []⟩, none⟩)
  /-- a command for the tracked database, or a choice by a caller -/
  | command {fs : List InFlight} {t : Belief} {f : InFlight} {r : Request}
      (rest : Script s owned fs t) (hf : s.sent? f = some r.sent) (hr : r.Routable)
      (hcall : s.Calls owned f ∨ r.command ≠ .select)
      (hdb : ∀ d, r.db = some d → t.db = some d ∨ r.command = .select) :
      Script s owned (fs ++ [f]) (t.hear r.sent)
  /-- a choice by the pump, and the command that needs it -/
  | choice {fs : List InFlight} {t : Belief} {f g : InFlight} {r : Request} {d : Database}
      (rest : Script s owned fs t) (hf : s.sent? f = some (Request.select d).sent)
      (hne : t.db ≠ some d) (hg : s.sent? g = some r.sent) (hr : r.Routable)
      (hcall : s.Calls owned g) (hd : r.db = some d) :
      Script s owned (fs ++ [f] ++ [g]) ((t.hear (Request.select d).sent).hear r.sent)

namespace Script

theorem mono (h : s.Script owned fs t) (hgrows : s.Grows s') (howned : owned ⊆ owned') :
    s'.Script owned' fs t := by
  induction h with
  | start => exact .start
  | opens _ ht hf ih => exact ih.opens ht (hgrows.sent? hf)
  | closes b _ ht ih => exact ih.closes b ht
  | command _ hf hr hcall hdb ih =>
      exact ih.command (hgrows.sent? hf) hr (hcall.imp_left fun h => h.mono hgrows howned) hdb
  | choice _ hf hne hg hr hcall hd ih =>
      exact ih.choice (hgrows.sent? hf) hne (hgrows.sent? hg) hr (hcall.mono hgrows howned) hd

theorem hearing (h : s.Script owned fs t) : hearing (s.sent fs) = t := by
  induction h with
  | start => rfl
  | opens _ _ hf ih => rw [sent_concat hf, hearing_concat, ih]
  | closes b _ _ ih => rw [sent_concat (s.sent?_exec b), hearing_concat, ih]
  | command _ hf _ _ _ ih => rw [sent_concat hf, hearing_concat, ih]
  | choice _ hf _ hg _ _ _ ih =>
      rw [sent_concat hg, sent_concat hf, hearing_concat, hearing_concat, ih]

/-- Callers do not give blocks up, and neither does the pump. -/
theorem ne_discard (h : s.Script owned fs t) : ∀ c ∈ s.sent fs, c.frame.command ≠ .discard := by
  have hconcat : ∀ {cs : List Sent} {c : Sent}, (∀ x ∈ cs, x.frame.command ≠ .discard) →
      c.frame.command ≠ .discard → ∀ x ∈ cs ++ [c], x.frame.command ≠ .discard := fun hcs hc =>
    List.forall_mem_append.mpr ⟨hcs, List.forall_mem_singleton.mpr hc⟩
  induction h with
  | start =>
      intro c hc
      cases hc
  | opens _ _ hf ih =>
      rw [sent_concat hf]
      exact hconcat ih (by decide)
  | closes b _ _ ih =>
      rw [sent_concat (s.sent?_exec b)]
      exact hconcat ih (by decide)
  | command _ hf hr _ _ ih =>
      rw [sent_concat hf]
      exact hconcat ih hr.1.2.2
  | @choice _ _ _ _ _ d _ hf _ hg hr _ _ ih =>
      rw [sent_concat hg, sent_concat hf]
      exact hconcat (hconcat ih (Request.select_routable d).1.2.2) hr.1.2.2

/-- What is tracked is right as long as every block is run. -/
theorem agrees (h : s.Script owned fs t) :
    (({} : Backend).feed (fun _ => true) (s.sent fs)).Agrees t := by
  have hconcat : ∀ (cs : List Sent) (c : Sent), ({} : Backend).feed (fun _ => true) (cs ++ [c])
      = (({} : Backend).feed (fun _ => true) cs).receive (fun _ => true) c := fun cs c =>
    Backend.feed_append _ _ cs [c]
  induction h with
  | start => exact ⟨rfl, fun d hd => Option.some.inj hd⟩
  | opens _ ht hf ih =>
      rw [sent_concat hf, hconcat]
      exact ih.multi _ ht rfl
  | closes b _ ht ih =>
      rw [sent_concat (s.sent?_exec b), hconcat]
      exact ih.exec ht rfl
  | command _ hf hr _ _ ih =>
      rw [sent_concat hf, hconcat]
      exact ih.plain _ hr
  | @choice _ _ _ _ _ d _ hf _ hg hr _ _ ih =>
      rw [sent_concat hg, hconcat, sent_concat hf, hconcat]
      exact (ih.plain _ (Request.select_routable d)).plain _ hr

/-- If the database is unknown, it has been forgotten, and no command has asked for one since. -/
theorem forgotten (h : s.Script owned fs t) (ht : t.db = none) : Forgotten (s.sent fs) := by
  induction h with
  | start => cases ht
  | opens _ _ hf ih =>
      rw [sent_concat hf]
      rw [Belief.hear_multi _ rfl] at ht
      exact (ih ht).concat rfl
  | @closes fs t switched b rest hblock ih =>
      rw [sent_concat (s.sent?_exec b)]
      by_cases hsw : t.block = some true
      · refine forgotten_of_exec rfl ?_
        rw [rest.hearing]
        exact hsw
      · rw [Belief.hear_exec _ rfl, if_neg hsw] at ht
        exact (ih ht).concat rfl
  | @command fs t f r rest hf hr _ hdb ih =>
      rw [sent_concat hf]
      by_cases hselect : r.command = .select
      · obtain ⟨d, rfl⟩ := hr.2 hselect
        rw [Belief.hear_select] at ht
        cases ht
      · rw [Belief.hear_of_ne t hr hselect] at ht
        refine (ih ht).concat ?_
        -- a command for some database would not have come without a choice
        show r.db = none
        cases hd : r.db with
        | none => rfl
        | some d =>
            have hknown := (hdb d hd).resolve_right hselect
            rw [ht] at hknown
            cases hknown
  | @choice fs t f g r d rest hf hne hg hr hcall hd ih =>
      rw [Belief.hear_select] at ht
      by_cases hselect : r.command = .select
      · obtain ⟨d', rfl⟩ := hr.2 hselect
        rw [Belief.hear_select] at ht
        cases ht
      · rw [Belief.hear_of_ne _ hr hselect] at ht
        cases ht

end Script

/-- Between the frames `before` and `after` the pump chooses a database, for the command behind the
choice. -/
def Chosen (s : Store) (owned : List MessageId) (before : List InFlight) (c : Sent)
    (after : List InFlight) : Prop :=
  ∃ t d g rest, s.Script owned before t ∧ c = (Request.select d).sent ∧ t.db ≠ some d
    ∧ after = g :: rest ∧ s.Calls owned g ∧ s.targetOf g = some d

theorem Chosen.concat {before after : List InFlight} (h : s.Chosen owned before c after)
    (f : InFlight) : s.Chosen owned before c (after ++ [f]) := by
  obtain ⟨t, d, g, rest, hbefore, hd, hne, rfl, hg⟩ := h
  exact ⟨t, d, g, rest ++ [f], hbefore, hd, hne, rfl, hg⟩

namespace Script

/-- A choice that is not by a caller is by the pump, and the command behind it needs it. -/
theorem split (h : s.Script owned fs t) {before after : List InFlight}
    (hfs : fs = before ++ f :: after) (hf : s.sent? f = some c) (hc : c.frame.command = .select)
    (hcall : ¬ s.Calls owned f) : s.Chosen owned before c after := by
  -- the frame is the last one, or the frames before the last one contain it
  have hconcat : ∀ {fs : List InFlight} {x : InFlight} {after : List InFlight},
      fs ++ [x] = before ++ f :: after →
      (after = [] ∧ fs = before ∧ x = f)
        ∨ ∃ after', after = after' ++ [x] ∧ fs = before ++ f :: after' := by
    intro fs x after heq
    rcases List.eq_nil_or_concat after with rfl | ⟨after', y, rfl⟩
    · obtain ⟨hfs, hx⟩ := List.append_inj' heq rfl
      exact Or.inl ⟨rfl, hfs, List.singleton_inj.mp hx⟩
    · rw [List.concat_eq_append, ← List.cons_append, ← List.append_assoc] at heq
      obtain ⟨hfs, hx⟩ := List.append_inj' heq rfl
      rw [List.concat_eq_append, List.singleton_inj.mp hx]
      exact Or.inr ⟨after', rfl, hfs⟩
  induction h generalizing after with
  | start => cases before <;> cases hfs
  | opens _ _ hx ih =>
      rcases hconcat hfs with ⟨-, -, rfl⟩ | ⟨after', rfl, hfs'⟩
      · cases hf.symm.trans hx
        cases hc
      · exact (ih hfs').concat _
  | closes b _ _ ih =>
      rcases hconcat hfs with ⟨-, -, rfl⟩ | ⟨after', rfl, hfs'⟩
      · cases hf.symm.trans (s.sent?_exec b)
        cases hc
      · exact (ih hfs').concat _
  | command _ hx _ hby _ ih =>
      rcases hconcat hfs with ⟨-, -, rfl⟩ | ⟨after', rfl, hfs'⟩
      · cases hf.symm.trans hx
        exact (hby.elim hcall fun hne => hne hc).elim
      · exact (ih hfs').concat _
  | @choice _ t _ g _ d hrest hx hne hg _ hby hd ih =>
      rcases hconcat hfs with ⟨-, -, rfl⟩ | ⟨after', rfl, hfs'⟩
      · exact absurd hby hcall
      rcases hconcat hfs' with ⟨rfl, rfl, rfl⟩ | ⟨after'', rfl, hfs''⟩
      · cases hf.symm.trans hx
        exact ⟨t, d, g, [], hrest, rfl, hne, rfl, hby, (targetOf_of_sent? hg).trans hd⟩
      · exact ((ih hfs'').concat _).concat _

end Script

end Store

/-! ## What is written follows the grammar -/

variable {s s' : Store} {owned : List MessageId} {before : List InFlight}

/-- The inside of a block. -/
theorem Layout.script {db db' : Option Database} {ids : List MessageId} {fs : List InFlight}
    {slots : List (Option MessageId)} (h : Layout s db ids fs slots db') (wf : s.WellFormed)
    (hids : ∀ j ∈ ids, s.Asks j ∧ j ∈ owned) {start : Option Database} {left : Prop} {t : Belief}
    (hbefore : s.Script owned before t) (ht : t.Within start left) (hdb : t.db = db) :
    ∃ t', s.Script owned (before ++ fs) t'
      ∧ t'.Within start (left ∨ ∃ j ∈ ids, ∃ d, (s.requestOf j).db = some d ∧ start ≠ some d) := by
  induction h generalizing before t left with
  | nil db => exact ⟨t, by simpa using hbefore, ht.congr (by simp)⟩
  | @stays db _ i e ids fs slots m hm hstay he rest ih =>
      obtain ⟨⟨n, hn, hbody, hr⟩, howned⟩ := hids i List.mem_cons_self
      cases hm.symm.trans hn
      have hneeds : ∀ d, m.request.db = some d → t.db = some d ∨ m.request.command = .select := by
        intro d hd
        rw [hdb]
        exact (hstay d hd).imp_right (Message.isSelect_of_single hbody).mp
      obtain ⟨hwithin, hmoved⟩ := ht.hear hr hneeds
      have hsaid := hbefore.command (wf.sent?_envelope he hm) hr
        (Or.inl ⟨i, howned, Or.inr ⟨e, rfl, he⟩⟩) hneeds
      rw [hdb] at hmoved
      obtain ⟨t', hscript, ht'⟩ := ih (fun j hj => hids j (List.mem_cons_of_mem i hj)) hsaid
        hwithin hmoved
      refine ⟨t', by simpa using hscript, ht'.congr ?_⟩
      rw [List.exists_mem_cons_iff, Store.requestOf_of_draft? hm, or_assoc]
  | @moves db _ i e choice ce ids fs slots m d hm hd hne hs hchoice hce he rest ih =>
      obtain ⟨⟨n, hn, hbody, hr⟩, howned⟩ := hids i List.mem_cons_self
      cases hm.symm.trans hn
      obtain ⟨hchosen, hmoved⟩ := ht.hear (Request.select_routable d) fun _ _ => Or.inr rfl
      obtain ⟨hwithin, hsame⟩ := hchosen.hear hr fun d' hd' =>
        Or.inl (hmoved.trans (hd.symm.trans hd'))
      have hsaid := hbefore.choice (wf.choice_sent? hce hchoice) (hdb.symm ▸ hne)
        (wf.sent?_envelope he hm) hr ⟨i, howned, Or.inr ⟨e, rfl, he⟩⟩ hd
      rw [hd] at hsame
      obtain ⟨t', hscript, ht'⟩ := ih (fun j hj => hids j (List.mem_cons_of_mem i hj)) hsaid
        hwithin hsame
      refine ⟨t', by simpa using hscript, ht'.congr ?_⟩
      -- the choice and the command behind it are for the same database
      have htwice : (∃ d', (Request.select d).db = some d' ∧ start ≠ some d')
          ↔ ∃ d', m.request.db = some d' ∧ start ≠ some d' := by rw [hd]; rfl
      rw [List.exists_mem_cons_iff, Store.requestOf_of_draft? hm, htwice, or_assoc, or_assoc,
        or_self_left]

/-- Whatever is written for a message of its own. -/
theorem Dispatches.script {db sel : Option Database} {id : MessageId} {fs : List InFlight}
    (h : Dispatches s db id s' fs sel) (wf : s'.WellFormed) (hask : s.Asks id) (howned : id ∈ owned)
    (hbefore : s'.Script owned before ⟨db, none⟩) :
    s'.Script owned (before ++ fs) ⟨sel, none⟩ := by
  obtain ⟨n, hn, hbody, hr⟩ := hask
  have hcall : s'.Calls owned (.message id) := ⟨id, howned, Or.inl rfl⟩
  have hsent : s'.sent? (.message id) = some n.request.sent :=
    wf.sent?_single (h.grows id n hn) hbody
  have hsame : ∀ m, s.messages[id]? = some m → m.request = n.request ∧ m.isSelect = n.isSelect := by
    intro m hm
    cases (Store.draft?_of_get hm).symm.trans hn
    exact ⟨rfl, rfl⟩
  have hselect := Message.isSelect_of_single hbody
  cases h with
  | plain hm hb hs hdb =>
      obtain ⟨hrequest, his⟩ := hsame _ hm
      rw [his] at hs
      rw [hrequest] at hdb
      have hsaid := hbefore.command hsent hr (Or.inl hcall) fun d hd => Or.inl (hdb d hd)
      rw [Belief.hear_of_ne _ hr (mt hselect.mpr (by rw [hs]; decide))] at hsaid
      exact hsaid
  | choice hm hs =>
      obtain ⟨hrequest, his⟩ := hsame _ hm
      rw [his] at hs
      obtain ⟨d, hd⟩ := hr.2 (hselect.mp hs)
      have hsaid := hbefore.command hsent hr (Or.inl hcall) fun _ _ => Or.inr (hselect.mp hs)
      rw [hd, Belief.hear_select] at hsaid
      rw [hrequest, hd]
      exact hsaid
  | preceded hm hb hs hd hne =>
      obtain ⟨hrequest, his⟩ := hsame _ hm
      rw [his] at hs
      rw [hrequest] at hd
      have hsaid := hbefore.choice (s.issue_carries (.select _)).sent? hne hsent hr hcall hd
      rw [Belief.hear_of_ne _ hr (mt hselect.mpr (by rw [hs]; decide)), Belief.hear_select] at hsaid
      simpa using hsaid
  | batch hm hb =>
      cases (Store.draft?_of_get hm).symm.trans hn
      cases hb.symm.trans hbody

namespace Engine

variable {accepted : List MessageId} {e e' : Engine} {ev : Event} {evs : List Event}

/-- Everything that has been written follows the grammar, and the pump tracks what is known. -/
def Scripted (e : Engine) : Prop := e.store.Script e.owned e.tape ⟨e.writer.selected, none⟩

theorem round_owned (h : e.step .round = some e') : e'.owned = e.owned := by
  rcases step_owned h with howned | ⟨r, hr, -⟩
  · exact howned
  · cases hr

/-- A round for a batch writes a block. -/
theorem round_scripted_batch (hs : e.Sound accepted) (h : e.step .round = some e') (ha : e.Asks)
    (hscript : Scripted e) {id : MessageId} {ms : List MessageId} (hpicks : e.Picks id)
    (hb : e.store.IsBatch id ms) : Scripted e' := by
  have wf := (step_sound hs h).custody.wellFormed
  have hgrows := step_grows hs h
  have howned := round_owned h
  obtain ⟨multi, fs, b, hblock⟩ :=
    round_writes_block hs hpicks.next hb hpicks.phase hpicks.aborting h
  obtain ⟨hforgets, hkeeps⟩ :=
    round_selected hs hpicks.next hb hpicks.phase hpicks.aborting h
  obtain ⟨db', hlayout⟩ := hblock.store.layout
  have hmembers := hs.custody.kinds.members_owned id ms hb
  have hlive : ∀ j ∈ e.store.live ms, e'.store.Asks j ∧ j ∈ e.owned := fun j hj =>
    have hj := hmembers j (Store.mem_live.mp hj).1
    ⟨hgrows.asks (ha j hj), hj⟩
  -- the block is opened, filled and closed
  have hopened := (hscript.mono hgrows (List.Subset.refl _)).opens rfl hblock.store.start.sent?
  have hbegins := Belief.Within.multi (c := Request.multi.sent) ⟨e.writer.selected, none⟩ rfl
  obtain ⟨t, hinside, hwithin⟩ := hlayout.script wf hlive hopened hbegins
    (congrArg Belief.db (Belief.hear_multi _ rfl))
  obtain ⟨switched, hopen, -⟩ := hwithin.block
  have hclosed := hinside.closes b hopen
  have hleaves : (False ∨ ∃ j ∈ e.store.live ms, ∃ d, (e'.store.requestOf j).db = some d
      ∧ e.writer.selected ≠ some d) ↔ e.store.Leaves e.writer.selected ms := by
    rw [false_or]
    refine exists_congr fun j => and_congr_right fun hj => ?_
    obtain ⟨m, hm, -⟩ := ha j (hlive j hj).2
    rw [hgrows.requestOf (Store.lt_size_of_draft? hm)]
  obtain ⟨hforgotten, hkept⟩ := (hwithin.congr hleaves).exec (c := ⟨⟨.exec, []⟩, none⟩) rfl
  have hknown : t.hear ⟨⟨.exec, []⟩, none⟩ = ⟨e'.writer.selected, none⟩ := by
    by_cases hl : e.store.Leaves e.writer.selected ms
    · rw [hforgotten hl, hforgets hl]
    · rw [hkept hl, hkeeps hl]
  unfold Scripted
  rw [howned, show e'.tape = e.tape ++ _ from hblock.tape, ← hknown]
  simpa using hclosed

/-- So does a round for a message of its own, and there are no others. -/
theorem round_scripted (hs : e.Sound accepted) (h : e.step .round = some e') (ha : e.Asks)
    (hscript : Scripted e) : Scripted e' := by
  have hgrows := step_grows hs h
  have howned := round_owned h
  have hbefore := hscript.mono hgrows (List.Subset.refl _)
  rcases round_tape hs h with ⟨htape, hselected⟩ | ⟨id, fs, hpicks, hdispatch, htape, -⟩
  · unfold Scripted
    rw [howned, htape, hselected]
    exact hbefore
  · rcases hs.custody.kinds.queued_kind id hpicks.queued with ho | ⟨ms, hb⟩
    · have hask := (Store.markSent_sends e.store id).grows.asks (ha id ho)
      unfold Scripted
      rw [howned, htape]
      exact hdispatch.script (step_sound hs h).custody.wellFormed hask ho hbefore
    · exact round_scripted_batch hs h ha hscript hpicks hb

/-- Every step keeps to the grammar. -/
theorem step_scripted (hs : e.Sound accepted) (h : e.step ev = some e') (ha : e.Asks)
    (hscript : Scripted e) : Scripted e' := by
  have howned : e.owned ⊆ e'.owned := by
    rcases step_owned h with howned | ⟨r, -, rfl⟩
    · rw [howned]
      exact List.Subset.refl _
    · exact List.subset_cons_self _ _
  have hbefore := hscript.mono (step_grows hs h) howned
  have hrest : e'.tape = e.tape → e'.writer.selected = e.writer.selected → Scripted e' := by
    intro htape hselected
    unfold Scripted
    rw [htape, hselected]
    exact hbefore
  cases hq : ev.isQuiet with
  | true =>
      obtain ⟨-, hrests⟩ := step_quiet hs hq h
      exact hrest hrests.tape hrests.selected
  | false =>
      cases ev with
      | round => exact round_scripted hs h ha hscript
      | finish =>
          obtain ⟨hselected, htape | ⟨id, hquit, htape⟩⟩ := finish_tape hs h
          · exact hrest htape hselected
          · -- the good-bye needs no database
            have hsaid := hbefore.command hquit.sent? Request.quit_routable
              (Or.inr (by decide)) fun d hd => by cases hd
            rw [Belief.hear_of_ne _ Request.quit_routable (by decide)] at hsaid
            unfold Scripted
            rw [htape, hselected]
            exact hsaid
      | reply r =>
          obtain ⟨-, -, ⟨-, hrests⟩ | ⟨f, -, htakes⟩⟩ := reply_takes hs h
          · exact hrest hrests.tape hrests.selected
          · exact hrest htakes.tape htakes.selected
      | _ => cases hq

theorem run_scripted {config : Config} (h : (new config).run evs = some e)
    (hr : ∀ r, .make r ∈ evs → r.Routable) : Scripted e := by
  have hall := run_induction_mem (P := fun e => e.Sound [] ∧ e.Asks ∧ Scripted e) ?_ h
    ⟨new_sound config, new_asks config, .start⟩
  · exact hall.2.2
  · rintro e ev e' hev ⟨hs, ha, hscript⟩ hstep
    exact ⟨step_sound hs hstep, step_asks hs hstep (fun r hmake => hr r (hmake ▸ hev)) ha,
      step_scripted hs hstep ha hscript⟩

/-! ## The choices of the pump -/

/-- The frame is a choice of a database that no caller has asked for. -/
def Inserts (e : Engine) (f : InFlight) (c : Sent) : Prop :=
  e.store.sent? f = some c ∧ c.frame.command = .select ∧ ¬ e.store.Calls e.owned f

/-- The choice `c`, written after the frames `before`, is one of the database `d` for the command
`g` behind it. A server that runs every block executes it while the database `db` is selected. -/
structure Inserted (e : Engine) (before : List InFlight) (c : Sent) (g : InFlight)
    (d db : Database) : Prop where
  choice : c = (Request.select d).sent
  call : e.store.Calls e.owned g
  target : e.store.targetOf g = some d
  /-- it is executed right behind everything that has been written before -/
  executed :
    (({} : Backend).feed (fun _ => true) (e.store.sent before)).settled.executed ++ [(c, db)]
      <+: (e.backend fun _ => true).executed

/-- The pump tracks the selected database as it is known from what has been written, and its choices
are needed: each moves the server, or the database is unknown since a block with a switch. -/
structure Frugal (e : Engine) : Prop where
  tracked : hearing (e.store.sent e.tape) = ⟨e.writer.selected, none⟩
  needed : ∀ before f after c, e.tape = before ++ f :: after → e.Inserts f c →
    ∃ g rest d db, after = g :: rest ∧ e.Inserted before c g d db
      ∧ (hearing (e.store.sent before)).db ≠ some d
      ∧ (db ≠ d ∨ Forgotten (e.store.sent before))

/-- If callers leave the blocks to the pump, and choose databases as it is meant, the pump makes no
choice in vain in any run. -/
theorem no_choice_in_vain {config : Config} (h : (new config).run evs = some e)
    (hr : ∀ r, .make r ∈ evs → r.Routable) : Frugal e := by
  have hscript := run_scripted h hr
  refine ⟨hscript.hearing, ?_⟩
  rintro before f after c htape ⟨hf, hc, hcall⟩
  obtain ⟨t, d, g, rest, hbefore, rfl, hne, rfl, hg, htarget⟩ := hscript.split htape hf hc hcall
  have hagrees := hbefore.agrees
  set u := ({} : Backend).feed (fun _ => true) (e.store.sent before)
  refine ⟨g, rest, d, u.settled.db, rfl, ⟨rfl, hg, htarget, ?_⟩, ?_, ?_⟩
  · -- at the end no block is open, so what has been taken for granted has been executed
    have hend : (e.backend fun _ => true).settled = _ :=
      Backend.settled_of_none ((run_routes h hr).follows _).block
    have hall : e.store.sent e.tape = e.store.sent before
        ++ ((Request.select d).sent :: e.store.sent (g :: rest)) := by
      rw [htape, Store.sent_append, Store.sent_cons hf]
    have hback : (e.backend fun _ => true)
        = (u.receive (fun _ => true) (Request.select d).sent).feed (fun _ => true)
          (e.store.sent (g :: rest)) := by
      unfold backend
      rw [hall, Backend.feed_append]
      rfl
    have hdiscard : ∀ x ∈ e.store.sent (g :: rest), x.frame.command ≠ .discard := by
      intro x hx
      refine hscript.ne_discard x ?_
      rw [hall]
      exact List.mem_append_right _ (List.mem_cons_of_mem _ hx)
    have hlog := Backend.feed_settled_executed (u.receive (fun _ => true) (Request.select d).sent)
      hdiscard
    rw [← hback, hend, Backend.receive_settled_plain _ (Request.select_routable d).1] at hlog
    exact hlog
  · rw [hbefore.hearing]
    exact hne
  · cases ht : t.db with
    | none => exact Or.inr (hbefore.forgotten ht)
    | some d' =>
        refine Or.inl fun heq => hne ?_
        rw [ht, ← hagrees.db d' ht, heq]

/-- A command for a second database, one for a third in a transaction, and another for the third. -/
def sameAgain : List Event :=
  [.make { command := .get, db := some 1, args := [.text "k"] },
   .make { command := .incr, db := some 2, args := [.text "n"] },
   .make { command := .get, db := some 2, args := [.text "n"] }, .newTransaction,
   .submit .connection 0 .standard .text, .submit (.transaction 0) 1 .standard .integer,
   .execute 0 .standard, .submit .connection 2 .standard .text, .round, .round, .round]

/-- The last choice changes nothing. The pump does not know, for the block before has a switch. -/
theorem no_choice_in_vain_sameAgain :
    ∃ e, (new {}).run sameAgain = some e ∧ Frugal e
      ∧ (e.backend fun _ => true).executed.map (fun x => (x.1.frame.command, x.1.target, x.2))
        = [(.select, some 1, 0), (.get, some 1, 1), (.select, some 2, 1), (.incr, some 2, 2),
          (.select, some 2, 2), (.get, some 2, 2)] := by
  refine ⟨((new {}).run sameAgain).get (by decide), (Option.some_get _).symm, ?_, by rfl⟩
  refine no_choice_in_vain (Option.some_get _).symm fun r hr => ?_
  have hmade : r = { command := .get, db := some 1, args := [.text "k"] }
      ∨ r = { command := .incr, db := some 2, args := [.text "n"] }
      ∨ r = { command := .get, db := some 2, args := [.text "n"] } := by simpa [sameAgain] using hr
  rcases hmade with rfl | rfl | rfl
  all_goals exact ⟨⟨by decide, by decide, by decide⟩, fun h => by cases h⟩

end Engine

end RespMux
