import OpenShell.Util.Collect

/-!
# Successful results

Fallible functions of the source return `Except`. A claim about what they
accept starts from a result `.ok y` and takes the computation apart; these
lemmas are the steps of that, one for each way results are combined.
-/

namespace OpenShell

variable {ε α β : Type}

theorem ok_pair_inj {a a' : α} {b b' : β} (h : (.ok (a, b) : Except ε (α × β)) = .ok (a', b')) :
    a = a' ∧ b = b' :=
  Prod.mk.inj (Except.ok.inj h)

variable {x : Except ε α}

/-- A successful map over a result came from a result. -/
theorem map_eq_ok {f : α → β} {y : β} (h : f <$> x = .ok y) :
    ∃ a, x = .ok a ∧ f a = y := by
  cases x with
  | error e => cases h
  | ok a => exact ⟨a, rfl, Except.ok.inj h⟩

variable {f : α → Except ε β}

/-- A successful bind ran both halves. -/
theorem bind_eq_ok {y : β} (h : (x >>= f) = .ok y) :
    ∃ a, x = .ok a ∧ f a = .ok y := by
  cases x with
  | error e => cases h
  | ok a => exact ⟨a, rfl, h⟩

theorem bind_eq_error {e : ε} (h : (x >>= f) = .error e) :
    x = .error e ∨ ∃ a, x = .ok a ∧ f a = .error e := by
  cases x with
  | error e' => exact .inl (congrArg _ (Except.error.inj h))
  | ok a => exact .inr ⟨a, rfl, h⟩

/-- A bind whose second half cannot fail. -/
theorem bind_ok_eq_ok {f : α → β} {y : β} (h : (x >>= fun a => .ok (f a)) = .ok y) :
    ∃ a, x = .ok a ∧ f a = y := by
  obtain ⟨a, ha, h⟩ := bind_eq_ok h
  exact ⟨a, ha, Except.ok.inj h⟩

/-- A result that the first branch cannot give. -/
theorem else_of_ite {c : Prop} [Decidable c] {a b y : α} (h : (if c then a else b) = y)
    (ha : a ≠ y) : ¬c ∧ b = y := by
  split at h
  next => exact absurd h ha
  next hc => exact ⟨hc, h⟩

theorem then_of_ite {c : Prop} [Decidable c] {a b y : α} (h : (if c then a else b) = y)
    (hb : b ≠ y) : c ∧ a = y := by
  rw [← ite_not] at h
  simpa using else_of_ite h hb

theorem bind_eq_ok_iff {y : β} :
    (x >>= f) = .ok y ↔ ∃ a, x = .ok a ∧ f a = .ok y := by
  refine ⟨bind_eq_ok, ?_⟩
  rintro ⟨a, rfl, h⟩
  exact h

theorem exists_ok_of_isSome (h : x.toOption.isSome = true) : ∃ y, x = .ok y := by
  cases x with
  | error e => cases h
  | ok a => exact ⟨a, rfl⟩

theorem exists_ok_and {P : α → Prop} (hok : x.toOption.isSome = true) (h : ∀ y, x = .ok y → P y) :
    ∃ y, x = .ok y ∧ P y := by
  obtain ⟨y, hy⟩ := exists_ok_of_isSome hok
  exact ⟨y, hy, h y hy⟩

/-- What a function returns on the value of a result. -/
theorem apply_of_toOption_map {y : α} {f : α → β} {b : β} (h : x = .ok y)
    (hm : x.toOption.map f = some b) : f y = b := by
  rw [h] at hm
  exact Option.some.inj hm

/-- `if c { return Err(e); }`. -/
def rejectIf (c : Prop) [Decidable c] (e : ε) : Except ε Unit :=
  if c then .error e else .ok ()

theorem rejectIf_eq_ok {c : Prop} [Decidable c] {e : ε} {u : Unit} :
    rejectIf c e = .ok u ↔ ¬c := by
  unfold rejectIf
  split
  next hc => simp [hc]
  next hc => simp [hc]

/-- A computation that goes on after a check passed the check. -/
theorem rejectIf_bind {c : Prop} [Decidable c] {e : ε} {f : Unit → Except ε β} {y : β} :
    (rejectIf c e >>= f) = .ok y ↔ ¬c ∧ f () = .ok y := by
  unfold rejectIf
  split
  next hc =>
    constructor
    · intro h
      cases h
    · exact fun h => absurd hc h.1
  next hc => exact ⟨fun h => ⟨hc, h⟩, fun h => h.2⟩

/-- A successful traversal ran its function on every element, in order. -/
theorem mapM_eq_ok :
    ∀ {l : List α} {r : List β}, l.mapM f = .ok r → List.Forall₂ (fun a b => f a = .ok b) l r
  | [], r, h => by
    obtain rfl : [] = r := Except.ok.inj h
    exact .nil
  | a :: l, r, h => by
    rw [List.mapM_cons] at h
    obtain ⟨b, hb, h⟩ := bind_eq_ok h
    obtain ⟨bs, hbs, h⟩ := bind_eq_ok h
    obtain rfl : b :: bs = r := Except.ok.inj h
    exact .cons hb (mapM_eq_ok hbs)

theorem exists_of_mem_mapM {l : List α} {r : List β} (h : l.mapM f = .ok r) (b : β) (hb : b ∈ r) :
    ∃ a ∈ l, f a = .ok b :=
  exists_of_forall₂_mem (mapM_eq_ok h).flip hb

/-- A traversal succeeds when every element does. -/
theorem exists_mapM_ok :
    ∀ {l : List α}, (∀ a ∈ l, ∃ b, f a = .ok b) → ∃ r, l.mapM f = .ok r
  | [], _ => ⟨[], rfl⟩
  | a :: l, h => by
    obtain ⟨b, hb⟩ := h a List.mem_cons_self
    obtain ⟨bs, hbs⟩ := exists_mapM_ok (List.forall_mem_cons.mp h).2
    exact ⟨b :: bs, by rw [List.mapM_cons, hb, hbs]; rfl⟩

/-- Where the function can only return `g`, the traversal is a map. -/
theorem mapM_eq_map {g : α → β} (hg : ∀ a b, f a = .ok b → b = g a)
    {l : List α} {r : List β} (h : l.mapM f = .ok r) : r = l.map g := by
  rw [eq_comm, ← List.forall₂_eq_eq_eq, List.forall₂_map_left_iff]
  exact (mapM_eq_ok h).imp fun a b hb => (hg a b hb).symm

theorem mapM_of_forall {g : α → β} :
    ∀ {l : List α}, (∀ a ∈ l, f a = .ok (g a)) → l.mapM f = .ok (l.map g)
  | [], _ => rfl
  | a :: l, h => by
    rw [List.mapM_cons, h a List.mem_cons_self,
      mapM_of_forall (List.forall_mem_cons.mp h).2]
    rfl

section ReturnsIf

variable {x : Except ε α} {f : α → Except ε β} {P Q : Prop} {a : α} {b : β}

/-- The call returns one value, and that under a condition. -/
def ReturnsIf (P : Prop) (a : α) (x : Except ε α) : Prop := ∀ out, x = .ok out ↔ P ∧ out = a

theorem returnsIf_pure (h : P) : ReturnsIf P a (pure a : Except ε α) :=
  fun _ => ⟨fun heq => ⟨h, (Except.ok.inj heq).symm⟩, fun heq => heq.2 ▸ rfl⟩

theorem returnsIf_of_ne_ok (h : ¬P) (hx : ∀ out, x ≠ .ok out) : ReturnsIf P a x :=
  fun out => iff_of_false (hx out) fun hout => h hout.1

theorem ReturnsIf.bind (hx : ReturnsIf P a x) (hf : ReturnsIf Q b (f a)) :
    ReturnsIf (P ∧ Q) b (x >>= f) := by
  intro out
  rw [bind_eq_ok_iff]
  constructor
  · rintro ⟨a', ha', h⟩
    obtain ⟨hP, rfl⟩ := (hx a').mp ha'
    obtain ⟨hQ, rfl⟩ := (hf out).mp h
    exact ⟨⟨hP, hQ⟩, rfl⟩
  · rintro ⟨⟨hP, hQ⟩, rfl⟩
    exact ⟨a, (hx a).mpr ⟨hP, rfl⟩, (hf out).mpr ⟨hQ, rfl⟩⟩

theorem ReturnsIf.bind_ok (hx : ReturnsIf P a x) (hf : f a = .ok b) : ReturnsIf P b (x >>= f) := by
  have h := hx.bind (show ReturnsIf True b (f a) from hf ▸ returnsIf_pure trivial)
  rwa [and_true] at h

theorem returnsIf_mapM {g : α → β} {P : α → Prop} (h : ∀ a, ReturnsIf (P a) (g a) (f a)) :
    ∀ l : List α, ReturnsIf (∀ a ∈ l, P a) (l.map g) (l.mapM f)
  | [] => returnsIf_pure (List.forall_mem_nil _)
  | a :: l => by
    rw [List.mapM_cons, List.forall_mem_cons]
    exact (h a).bind ((returnsIf_mapM h l).bind_ok rfl)

end ReturnsIf

section Agree

variable {ζ γ δ : Type} {x : Except ε α} {y : Except ζ γ} {R : α → γ → Prop} {S : β → δ → Prop}

/-- Whatever two calls return is related. -/
def Agree (R : α → γ → Prop) (x : Except ε α) (y : Except ζ γ) : Prop :=
  ∀ a c, x = .ok a → y = .ok c → R a c

theorem agree_pure {a : α} {c : γ} (h : R a c) :
    Agree R (pure a : Except ε α) (pure c : Except ζ γ) := by
  rintro _ _ ⟨⟩ ⟨⟩
  exact h

theorem Agree.bind {f : α → Except ε β} {g : γ → Except ζ δ} (h : Agree R x y)
    (hfg : ∀ a c, R a c → Agree S (f a) (g c)) : Agree S (x >>= f) (y >>= g) := by
  intro b d hb hd
  obtain ⟨a, ha, hb⟩ := bind_eq_ok hb
  obtain ⟨c, hc, hd⟩ := bind_eq_ok hd
  exact hfg a c (h a c ha hc) b d hb hd

theorem agree_mapM {f : α → Except ε β} {g : α → Except ζ δ} (h : ∀ a, Agree S (f a) (g a)) :
    ∀ l : List α, Agree (List.Forall₂ S) (l.mapM f) (l.mapM g)
  | [] => agree_pure .nil
  | a :: l => by
    rw [List.mapM_cons, List.mapM_cons]
    exact (h a).bind fun _ _ hhead => (agree_mapM h l).bind fun _ _ hrest =>
      agree_pure (.cons hhead hrest)

end Agree

/-- Two traversals one after the other, where together they come to a function of the element. -/
theorem mapM_mapM {γ : Type} {g : β → Except ε γ} {h : α → γ} {P : β → Prop} :
    ∀ {l : List α}, (∀ a ∈ l, ∃ b, f a = .ok b ∧ P b ∧ g b = .ok (h a)) →
      ∃ r, l.mapM f = .ok r ∧ (∀ b ∈ r, P b) ∧ r.mapM g = .ok (l.map h)
  | [], _ => ⟨[], rfl, fun _ hb => absurd hb List.not_mem_nil, rfl⟩
  | a :: l, hfg => by
    obtain ⟨b, hf, hP, hg⟩ := hfg a List.mem_cons_self
    obtain ⟨r, hr, hall, hgr⟩ := mapM_mapM (List.forall_mem_cons.mp hfg).2
    refine ⟨b :: r, by rw [List.mapM_cons, hf, hr]; rfl, fun c hc => ?_,
      by rw [List.mapM_cons, hg, hgr]; rfl⟩
    obtain rfl | hc := List.mem_cons.mp hc
    · exact hP
    · exact hall c hc

/-- A check of every element passes when each one does. -/
theorem forM_eq_ok {f : α → Except ε Unit} :
    ∀ {l : List α} {u : Unit}, forM l f = .ok u ↔ ∀ a ∈ l, f a = .ok u
  | [], u => by simp [pure, Except.pure]
  | a :: l, u => by
    rw [List.forM_cons, List.forall_mem_cons]
    constructor
    · intro h
      obtain ⟨v, hv, h⟩ := bind_eq_ok h
      exact ⟨hv, forM_eq_ok.mp h⟩
    · rintro ⟨ha, h⟩
      rw [ha]
      exact forM_eq_ok.mpr h

variable {f : β → α → Except ε β}

/-- What a step of a fold only succeeds with holds of every element of the list. -/
theorem forall_of_foldlM_eq_ok {P : α → Prop}
    (hstep : ∀ st a st', f st a = .ok st' → P a) :
    ∀ {l : List α} {st st' : β}, l.foldlM f st = .ok st' → ∀ a ∈ l, P a
  | [], _, _, _ => fun _ ha => absurd ha List.not_mem_nil
  | b :: l, st, st', h => by
    rw [List.foldlM_cons] at h
    obtain ⟨next, hnext, h⟩ := bind_eq_ok h
    intro a ha
    obtain rfl | ha := List.mem_cons.mp ha
    · exact hstep _ _ _ hnext
    · exact forall_of_foldlM_eq_ok hstep h a ha

/-- What every round of a loop keeps, the loop keeps. -/
theorem foldlM_invariant {I : β → Prop} :
    ∀ {l : List α} {st st' : β}, (∀ {st a st'}, a ∈ l → I st → f st a = .ok st' → I st') →
      l.foldlM f st = .ok st' → I st → I st'
  | [], _, _, _, h, hst => Except.ok.inj h ▸ hst
  | a :: l, st, st', hstep, h, hst => by
    rw [List.foldlM_cons] at h
    obtain ⟨next, hnext, h⟩ := bind_eq_ok h
    exact foldlM_invariant (fun ha => hstep (List.mem_cons_of_mem _ ha)) h
      (hstep List.mem_cons_self hst hnext)

/-- A loop that fails does so at an element, with the earlier ones done. -/
theorem foldlM_eq_error {e : ε} :
    ∀ {l : List α} {st : β}, l.foldlM f st = .error e →
      ∃ before a after next, l = before ++ a :: after ∧ before.foldlM f st = .ok next ∧
        f next a = .error e
  | [], _, h => by cases h
  | a :: l, st, h => by
    rw [List.foldlM_cons] at h
    obtain hfirst | ⟨next, hnext, h⟩ := bind_eq_error h
    · exact ⟨[], a, l, st, rfl, rfl, hfirst⟩
    · obtain ⟨before, later, after, last, rfl, hbefore, hlater⟩ := foldlM_eq_error h
      exact ⟨a :: before, later, after, last, rfl,
        by rw [List.foldlM_cons, hnext]; exact hbefore, hlater⟩

end OpenShell
