import VmMetadata.Proofs.Dump.Segments

/-!
Where the pulling of a dump stops. A dump is read only as far as it is pulled, so it does not matter
to the session who pulls it and why they stop, but only what they have got by then. Main statement:
whoever stops at the first error of a dump leaves the session of one who wants just the items up to
it, whatever the machine answers.
-/

namespace VmMetadata

namespace Pulled

variable {p left : Patience} {es : List DumpEvent}

/-- Who sees the end has got everything. -/
theorem events_of_patience : ∀ {p : Patience} {es : List DumpEvent} {left : Patience},
    (cut p es).patience = some left → (cut p es).events = es
  | p, [], _, _ => rfl
  | p, .progress name :: rest, left, h => by
      rw [cut] at h ⊢
      have h : (cut p rest).patience = some left := h
      exact congrArg _ (events_of_patience h)
  | p, .item item :: rest, left, h => by
      rw [cut] at h ⊢
      cases hafter : p.after? item with
      | none =>
          rw [hafter] at h
          cases h
      | some left' =>
          rw [hafter] at h
          have h : (cut left' rest).patience = some left := h
          exact congrArg _ (events_of_patience h)

/-- Who stops has got something, and the last of it is where they stop. -/
theorem events_ne_nil (h : (cut p es).patience = none) : (cut p es).events ≠ [] := by
  cases es with
  | nil => cases h
  | cons e rest =>
      cases e with
      | progress name => exact List.cons_ne_nil _ _
      | item item =>
          rw [cut]
          cases p.after? item <;> exact List.cons_ne_nil _ _

theorem length_events_le : ∀ (p : Patience) (es : List DumpEvent),
    (cut p es).events.length ≤ es.length
  | p, [] => Nat.le_refl 0
  | p, .progress name :: rest => by
      rw [cut]
      exact Nat.succ_le_succ (length_events_le p rest)
  | p, .item item :: rest => by
      rw [cut]
      cases p.after? item with
      | none => exact Nat.succ_le_succ (Nat.zero_le _)
      | some left => exact Nat.succ_le_succ (length_events_le left rest)

end Pulled

/-! ## The session at a stop -/

/-- Whoever is stopped with the same events in hand has left the same session. -/
def StopsAlike (pull : Patience → StateM Session Pulled) (s : Session) (es : List DumpEvent) :
    Prop :=
  ∀ p q, (Pulled.cut p es).patience = none → Pulled.cut p es = Pulled.cut q es →
    (pull p s).2 = (pull q s).2

namespace StopsAlike

variable {s t : Session} {es fs : List DumpEvent}

/-- What is read before anything is pulled is read by everyone. -/
theorem after {x : StateM Session α} {f : α → Patience → StateM Session Pulled} {a : α}
    (hx : x s = (a, t)) (hf : StopsAlike (f a) t es) :
    StopsAlike (fun p => x >>= fun a => f a p) s es := by
  intro p q hstop hsame
  have hrun : ∀ p, (x >>= fun a => f a p) s = f a p t := fun p => bind_of_eq hx _
  change ((x >>= fun a => f a p) s).2 = ((x >>= fun a => f a q) s).2
  rw [hrun, hrun]
  exact hf p q hstop hsame

theorem ofItems (items : List DumpItem) (s : Session) (es : List DumpEvent) :
    StopsAlike (fun p => pure (.ofItems p items)) s es :=
  fun _ _ _ _ => rfl

theorem notice {pull : Patience → StateM Session Pulled} (hpull : StopsAlike pull s es)
    (name : String) :
    StopsAlike
      (fun p => do
        let pulled ← pull p
        pure { pulled with events := .progress name :: pulled.events })
      s (.progress name :: es) := by
  intro p q hstop hsame
  simp only [Pulled.cut, Pulled.mk.injEq, List.cons.injEq, true_and] at hstop hsame
  exact hpull p q hstop (congrArg₂ Pulled.mk hsame.1 hsame.2)

/-- Two that are stopped in the first part, or two that are stopped in the rest, agree by what is
said of these parts. One of each kind cannot have the same events: who is stopped in the rest has
the whole first part and more. -/
theorem andThen {first rest : Patience → StateM Session Pulled}
    (hcuts : ∀ p, Cuts (first p) s p es t) (hfirst : StopsAlike first s es)
    (hrest : StopsAlike rest t fs) :
    StopsAlike (fun p => do (← first p).andThen rest) s (es ++ fs) := by
  have hrun : ∀ p, (Pulled.cut p es).patience = none →
      ((do (← first p).andThen rest : StateM Session Pulled) s).2 = (first p s).2 := by
    intro p hp
    change (((first p s).1).andThen rest (first p s).2).2 = _
    rw [(hcuts p).pulled, Pulled.andThen, hp]
    rfl
  have hrunRest : ∀ p left, (Pulled.cut p es).patience = some left →
      ((do (← first p).andThen rest : StateM Session Pulled) s).2 = (rest left t).2 := by
    intro p left hp
    change (((first p s).1).andThen rest (first p s).2).2 = _
    rw [(hcuts p).pulled, Pulled.andThen, hp, (hcuts p).ends left hp]
    rfl
  have hlonger : ∀ p left, (Pulled.cut left fs).patience = none →
      (Pulled.cut p es).events.length < (es ++ (Pulled.cut left fs).events).length := by
    intro p left hleft
    have hle := Pulled.length_events_le p es
    have hpos := List.length_pos_iff.mpr (Pulled.events_ne_nil hleft)
    rw [List.length_append]
    omega
  intro p q hstop hsame
  rw [Pulled.cut_append] at hstop hsame
  rw [Pulled.cut_append q] at hsame
  cases hp : (Pulled.cut p es).patience with
  | none =>
      simp only [hp] at hsame
      rw [hrun p hp]
      cases hq : (Pulled.cut q es).patience with
      | none =>
          simp only [hq] at hsame
          rw [hrun q hq]
          exact hfirst p q hp hsame
      | some left =>
          simp only [hq] at hsame
          have hevents := congrArg (·.events.length) hsame
          have hleft : (Pulled.cut left fs).patience = none := by rw [← hp, hsame]
          simp only [Pulled.events_of_patience hq] at hevents
          exact absurd hevents (Nat.ne_of_lt (hlonger p left hleft))
  | some left =>
      simp only [hp, Pulled.events_of_patience hp] at hstop hsame
      rw [hrunRest p left hp]
      cases hq : (Pulled.cut q es).patience with
      | none =>
          simp only [hq] at hsame
          have hevents := congrArg (·.events.length) hsame
          exact absurd hevents.symm (Nat.ne_of_lt (hlonger q left hstop))
      | some left' =>
          simp only [hq, Pulled.events_of_patience hq, Pulled.mk.injEq,
            List.append_cancel_left_eq] at hsame
          rw [hrunRest q left' hq]
          exact hrest left left' hstop (congrArg₂ Pulled.mk hsame.1 hsame.2)

end StopsAlike

variable {s t : Session} {kind : DumpKind}

theorem pullClasses_stopsAlike {cs : List Class} {items : List DumpItem}
    (h : ContributesEach kind cs s items t) :
    StopsAlike (pullClasses kind cs) s (items.map .item) := by
  induction h with
  | nil s =>
      intro p q hstop _
      cases hstop
  | @cons c cs s t u items rest first _ ih =>
      have hitems := contributes_iff.mp first
      have hcuts : ∀ p, Cuts (do pure (.ofItems p (← classItems kind c))) s p
          (items.map .item) t :=
        fun p => .after hitems (.ofItems p items t)
      have halike : StopsAlike (fun p => do pure (.ofItems p (← classItems kind c))) s
          (items.map .item) :=
        .after hitems (.ofItems items t _)
      rw [List.map_append]
      exact .andThen hcuts halike ih

theorem pullAssembly_stopsAlike {a : Assembly} {g : Segment} (h : HasSegment kind a s g t) :
    StopsAlike (pullAssembly kind a) s g.events := by
  cases h with
  | unnamed fails =>
      exact .after (Query.attempt_of_error fails) (.ofItems _ t _)
  | noImage named fails =>
      have hlist := Query.attempt_of_error (Query.bind_error (f := Image.classes) fails)
      exact .after (Query.attempt_of_ok named) (.after hlist (.notice (.ofItems _ t _) _))
  | unlisted named image fails =>
      have hlist := Query.attempt_of_error ((Query.bind_ok (f := Image.classes) image).trans fails)
      exact .after (Query.attempt_of_ok named) (.after hlist (.notice (.ofItems _ t _) _))
  | listed named image list classes =>
      have hlist := Query.attempt_of_ok ((Query.bind_ok (f := Image.classes) image).trans list)
      refine .after (Query.attempt_of_ok named) (.after hlist (.notice ?_ _))
      exact pullClasses_stopsAlike classes

theorem pullAssemblies_stopsAlike {as : List Assembly} {gs : List Segment}
    (h : HasSegments kind as s gs t) :
    StopsAlike (pullAssemblies kind as) s (gs.flatMap Segment.events) := by
  induction h with
  | nil s =>
      intro p q hstop _
      cases hstop
  | cons first _ ih =>
      rw [List.flatMap_cons]
      exact .andThen (pullAssembly_cuts first) (pullAssembly_stopsAlike first) ih

/-- Behind its first reads, a dump is a stream of events, whatever was read. -/
theorem exists_pullDump_eq (kind : DumpKind) (s : Session) :
    ∃ (pull : Patience → StateM Session Pulled) (t : Session) (es : List DumpEvent) (u : Session),
      (∀ p, p.isOver = false → pullDump kind p s = pull p t) ∧
        (∀ p, Cuts (pull p) t p es u) ∧ StopsAlike pull t es := by
  cases hopen : (do (← Query.domain).assemblies : Query (List Assembly)) s with
  | error e t =>
      refine ⟨fun p => pure (.ofItems p [.error e]), t, [.item (.error e)], t, ?_, ?_, ?_⟩
      · intro p hp
        rw [pullDump_of_error hopen, hp]
        rfl
      · exact fun p => .ofItems p [.error e] t
      · exact .ofItems [.error e] t _
  | ok as t =>
      obtain ⟨gs, u, segments⟩ := exists_hasSegments kind as t
      exact ⟨pullAssemblies kind as, t, gs.flatMap Segment.events, u,
        fun p hp => pullDump_of_ok hopen hp, pullAssemblies_cuts segments,
        pullAssemblies_stopsAlike segments⟩

/-! ## Stopping at the first error -/

namespace Patience

/-- Patience up to the first error. -/
def toFirstError : Patience :=
  ⟨none, true⟩

theorem after?_toFirstError_ok (chunk : String) :
    toFirstError.after? (.ok chunk) = some toFirstError :=
  rfl

theorem after?_toFirstError_error (e : Error) : toFirstError.after? (.error e) = none :=
  rfl

end Patience

namespace Pulled

theorem items_cons_item (item : DumpItem) (es : List DumpEvent) (p : Option Patience) :
    (⟨.item item :: es, p⟩ : Pulled).items = item :: (⟨es, p⟩ : Pulled).items :=
  rfl

/-- Every list of events has chunks only up to its first error, or up to its end. -/
theorem exists_append_of_events (es : List DumpEvent) :
    ∃ (chunks : List String) (before after : List DumpEvent), es = before ++ after ∧
      (⟨before, none⟩ : Pulled).items = chunks.map .ok ∧
        (after = [] ∨ ∃ e rest, after = .item (.error e) :: rest) := by
  induction es with
  | nil => exact ⟨[], [], [], rfl, rfl, Or.inl rfl⟩
  | cons event es ih =>
      obtain ⟨chunks, before, after, rfl, hchunks, hafter⟩ := ih
      cases event with
      | progress name => exact ⟨chunks, .progress name :: before, after, rfl, hchunks, hafter⟩
      | item item =>
          cases item with
          | error e => exact ⟨[], [], _, rfl, rfl, Or.inr ⟨e, _, rfl⟩⟩
          | ok chunk =>
              refine ⟨chunk :: chunks, .item (.ok chunk) :: before, after, rfl, ?_, hafter⟩
              rw [items_cons_item, hchunks]
              rfl

variable {before : List DumpEvent}

/-- Chunks do not use up the patience for an error. -/
theorem cut_toFirstError_chunks : ∀ {before : List DumpEvent} {chunks : List String},
    (⟨before, none⟩ : Pulled).items = chunks.map .ok →
      cut .toFirstError before = ⟨before, some .toFirstError⟩
  | [], _, _ => rfl
  | .progress name :: before, chunks, h => by
      have h : (⟨before, none⟩ : Pulled).items = chunks.map .ok := h
      rw [cut, cut_toFirstError_chunks h]
  | .item item :: before, [], h => by cases h
  | .item item :: before, chunk :: chunks, h => by
      rw [items_cons_item, List.map_cons, List.cons.injEq] at h
      obtain ⟨rfl, h⟩ := h
      rw [cut, Patience.after?_toFirstError_ok]
      simp only [cut_toFirstError_chunks h]

/-- Who wants one item more than there are has got them all. -/
theorem cut_atMost_chunks : ∀ {before : List DumpEvent} {chunks : List String},
    (⟨before, none⟩ : Pulled).items = chunks.map .ok →
      cut (.atMost (chunks.length + 1)) before = ⟨before, some (.atMost 1)⟩
  | [], [], _ => rfl
  | [], _ :: _, h => by cases h
  | .progress name :: before, chunks, h => by
      have h : (⟨before, none⟩ : Pulled).items = chunks.map .ok := h
      rw [cut, cut_atMost_chunks h]
  | .item item :: before, [], h => by cases h
  | .item item :: before, chunk :: chunks, h => by
      rw [items_cons_item, List.map_cons, List.cons.injEq] at h
      rw [cut, List.length_cons, Patience.after?_atMost]
      simp only [cut_atMost_chunks h.2]

theorem cut_toFirstError_error {chunks : List String}
    (h : (⟨before, none⟩ : Pulled).items = chunks.map .ok) (e : Error) (rest : List DumpEvent) :
    cut .toFirstError (before ++ .item (.error e) :: rest) =
      ⟨before ++ [.item (.error e)], none⟩ := by
  rw [cut_append, cut_toFirstError_chunks h]
  simp only [cut, Patience.after?_toFirstError_error]

theorem cut_atMost_error {chunks : List String}
    (h : (⟨before, none⟩ : Pulled).items = chunks.map .ok) (e : Error) (rest : List DumpEvent) :
    cut (.atMost (chunks.length + 1)) (before ++ .item (.error e) :: rest) =
      ⟨before ++ [.item (.error e)], none⟩ := by
  rw [cut_append, cut_atMost_chunks h]
  simp only [cut, Patience.after?_atMost_one]

end Pulled

/-- Whoever pulls a dump up to its first error gets the notices and chunks in front of it and the
error, and leaves the session of one who wants just that many items. Without an error they get the
whole dump and leave the session of one who pulls it to its end. -/
theorem pullDump_toFirstError (kind : DumpKind) (s : Session) :
    ∃ (chunks : List String) (before after : List DumpEvent),
      (pullDump kind .endless s).1.events = before ++ after ∧
      (⟨before, none⟩ : Pulled).items = chunks.map .ok ∧
      ((after = [] ∧ pullDump kind .toFirstError s =
          (⟨before, some .toFirstError⟩, (pullDump kind .endless s).2)) ∨
        ∃ e rest, after = .item (.error e) :: rest ∧ pullDump kind .toFirstError s =
          (⟨before ++ [.item (.error e)], none⟩,
            (pullDump kind (.atMost (chunks.length + 1)) s).2)) := by
  obtain ⟨pull, t, es, u, hdump, hcuts, halike⟩ := exists_pullDump_eq kind s
  obtain ⟨chunks, before, after, rfl, hchunks, hafter⟩ := Pulled.exists_append_of_events es
  refine ⟨chunks, before, after, ?_, hchunks, ?_⟩
  · rw [hdump .endless rfl, (hcuts .endless).pulled, Pulled.cut_endless]
  rw [hdump .toFirstError rfl, hdump .endless rfl, hdump (.atMost _) rfl]
  rcases hafter with rfl | ⟨e, rest, rfl⟩
  · have hcut := Pulled.cut_toFirstError_chunks hchunks
    have hpulled := (hcuts .toFirstError).pulled
    have hends := (hcuts .toFirstError).ends
    have hendless := (hcuts .endless).ends
    rw [List.append_nil] at hpulled hends hendless
    rw [hcut] at hpulled hends
    rw [Pulled.cut_endless] at hendless
    exact Or.inl ⟨rfl, Prod.ext hpulled ((hends _ rfl).trans (hendless _ rfl).symm)⟩
  · have hcut := Pulled.cut_toFirstError_error hchunks e rest
    have hmost := Pulled.cut_atMost_error hchunks e rest
    have hpulled := (hcuts .toFirstError).pulled
    have hstop := halike .toFirstError (.atMost (chunks.length + 1))
    rw [hcut] at hpulled hstop
    rw [hmost] at hstop
    exact Or.inr ⟨e, rest, rfl, Prod.ext hpulled (hstop rfl rfl)⟩

end VmMetadata
