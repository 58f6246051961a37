import DocClaims.Proofs.Yaml.WrittenText
import DocClaims.Yaml.Document

/-!
# Events of written data

The tokens of written data make up one document with the contents of the data.
-/

namespace DocClaims
namespace Yaml

/-! ### Contents -/

mutual

/-- The contents of a document that holds the data. -/
def contents : Datum → List Content
  | .text s => [.scalar none (Style.ofText s) s]
  | .list ds => .listStart none :: (itemContents ds ++ [.listEnd])
  | .table es => .tableStart none :: (entryContents es ++ [.tableEnd])
  | d => [.scalar none .plain ((atom? d).getD "")]

def itemContents : List Datum → List Content
  | [] => []
  | d :: ds => contents d ++ itemContents ds

def entryContents : List (String × Datum) → List Content
  | [] => []
  | (key, d) :: es => .scalar none .plain key :: (contents d ++ entryContents es)

end

def Event.content? : Event → Option Content
  | .scalar ⟨none, tag⟩ style text => some (.scalar tag style text)
  | .listStart ⟨none, tag⟩ => some (.listStart tag)
  | .listEnd => some .listEnd
  | .tableStart ⟨none, tag⟩ => some (.tableStart tag)
  | .tableEnd => some .tableEnd
  | _ => none

/-! ### Meeting goals -/

structure Meeting where
  done : List PlacedEvent
  goals : List Goal
  rest : List PlacedToken

namespace Meeting

variable {tags : TagTable} {k m : Nat} {a b c : Meeting}

/-- So many steps lead from one state to another. -/
def Leads (tags : TagTable) (k : Nat) (a b : Meeting) : Prop :=
  ∀ fuel, meet tags none a.done (fuel + k) a.goals a.rest =
    meet tags none b.done fuel b.goals b.rest

theorem Leads.trans (h : Leads tags k a b) (h' : Leads tags m b c) : Leads tags (k + m) a c := by
  intro fuel
  rw [Nat.add_comm k m, ← Nat.add_assoc, h, h']

theorem leads_step {goal : Goal} {goals : List Goal} {t : PlacedToken} {rest : List PlacedToken}
    {done : List PlacedEvent} {x : Advance} (h : advance tags goal t rest = .ok x) :
    Leads tags 1 ⟨done, goal :: goals, t :: rest⟩
      ⟨x.event.toList ++ done, x.goals ++ goals, x.rest⟩ := by
  intro fuel
  obtain ⟨event, goals', rest'⟩ := x
  rw [meet, h]
  cases event <;> rfl

end Meeting

/-! ### Goals and their tokens -/

theorem exists_of_map_token_eq_singleton {ps : List PlacedToken} {t : Token}
    (h : ps.map (·.token) = [t]) : ∃ place, ps = [⟨t, place⟩] := by
  obtain ⟨⟨token, place⟩, more, rfl, rfl, hmore⟩ := List.map_eq_cons_iff.1 h
  obtain rfl : more = [] := List.map_eq_nil_iff.1 hmore
  exact ⟨place, rfl⟩

variable {tags : TagTable} {goal g₁ g₂ : Goal} {p next : PlacedToken} {ps qs : List PlacedToken}
  {cs ds : List Content} {bound bound' : Nat} {c : Content}

/-- Before the token `next` the goal takes the tokens and gives the contents, in a
bounded number of steps. -/
def Gives (tags : TagTable) (goal : Goal) (ps : List PlacedToken) (cs : List Content) (bound : Nat)
    (next : PlacedToken) : Prop :=
  ∃ (es : List PlacedEvent) (k : Nat), k ≤ bound ∧
    es.map (·.event.content?) = cs.map some ∧
    ∀ done goals rest, Meeting.Leads tags k ⟨done, goal :: goals, ps ++ next :: rest⟩
      ⟨es.reverse ++ done, goals, next :: rest⟩

theorem Gives.mono (h : Gives tags goal ps cs bound next) (hle : bound ≤ bound') :
    Gives tags goal ps cs bound' next := by
  obtain ⟨es, k, hk, hes, hleads⟩ := h
  exact ⟨es, k, Nat.le_trans hk hle, hes, hleads⟩

theorem gives_cons
    (hadvance : ∀ rest, advance tags goal p (ps ++ (qs ++ next :: rest)) =
      .ok (.go [g₁, g₂] (ps ++ (qs ++ next :: rest))))
    (h : ∀ q ∈ (qs ++ [next]).head?, Gives tags g₁ ps cs bound q)
    (h' : Gives tags g₂ qs ds bound' next) :
    Gives tags goal (p :: (ps ++ qs)) (cs ++ ds) (1 + bound + bound') next := by
  obtain ⟨es', k', hk', hes', hleads'⟩ := h'
  obtain ⟨q, more, hqs⟩ : ∃ q more, qs ++ [next] = q :: more :=
    List.exists_cons_of_ne_nil (by simp)
  obtain ⟨es, k, hk, hes, hleads⟩ := h q (by simp [hqs])
  refine ⟨es ++ es', 1 + k + k', by omega, by simp [hes, hes'], ?_⟩
  intro done goals rest
  have hrest : qs ++ next :: rest = q :: (more ++ rest) := by
    rw [List.append_cons, hqs, List.cons_append]
  have hfirst := @Meeting.leads_step tags goal goals p _ done _ (hadvance rest)
  have hsecond := hleads done (g₂ :: goals) (more ++ rest)
  rw [← hrest] at hsecond
  have hthird := hleads' (es.reverse ++ done) goals rest
  simpa using (hfirst.trans hsecond).trans hthird

theorem gives_event {event : Event} {place : Place}
    (hadvance : ∀ rest, advance tags goal p (ps ++ next :: rest) =
      .ok (.give event place [g₁] (qs ++ next :: rest)))
    (hevent : event.content? = some c) (h : Gives tags g₁ qs cs bound next) :
    Gives tags goal (p :: ps) (c :: cs) (1 + bound) next := by
  obtain ⟨es, k, hk, hes, hleads⟩ := h
  refine ⟨⟨event, place⟩ :: es, 1 + k, by omega, by simp [hevent, hes], ?_⟩
  intro done goals rest
  have hfirst := @Meeting.leads_step tags goal goals p _ done _ (hadvance rest)
  simpa [Advance.give] using hfirst.trans (hleads (⟨event, place⟩ :: done) goals rest)

theorem gives_last {event : Event} {place : Place}
    (hadvance : ∀ rest, advance tags goal p rest = .ok (.give event place [] rest))
    (hevent : event.content? = some c) : Gives tags goal [p] [c] 1 next := by
  refine ⟨[⟨event, place⟩], 1, Nat.le_refl _, by simp [hevent], ?_⟩
  intro done goals rest
  simpa [Advance.give] using
    @Meeting.leads_step tags goal goals p _ done _ (hadvance (next :: rest))

theorem gives_end {event : Event} {place : Place}
    (hadvance : ∀ rest, advance tags goal next rest = .ok (.give event place [] (next :: rest)))
    (hevent : event.content? = some c) : Gives tags goal [] [c] 1 next := by
  refine ⟨[⟨event, place⟩], 1, Nat.le_refl _, by simp [hevent], ?_⟩
  intro done goals rest
  simpa [Advance.give] using
    @Meeting.leads_step tags goal goals next _ done _ (hadvance rest)

/-! ### Nodes -/

theorem advance_scalar (tags : TagTable) (block dashes : Bool) (style : Style) (text : String)
    (p : Place) (rest : List PlacedToken) :
    advance tags (.node block dashes) ⟨.scalar style text, p⟩ rest =
      .ok (.give (.scalar ⟨none, none⟩ style text) p [] rest) := rfl

theorem advance_flowList (tags : TagTable) (block dashes : Bool) (p : Place)
    (rest : List PlacedToken) :
    advance tags (.node block dashes) ⟨.flowListStart, p⟩ rest =
      .ok (.give (.listStart ⟨none, none⟩) p [.flowEntry true p] rest) := rfl

theorem advance_flowTable (tags : TagTable) (block dashes : Bool) (p : Place)
    (rest : List PlacedToken) :
    advance tags (.node block dashes) ⟨.flowTableStart, p⟩ rest =
      .ok (.give (.tableStart ⟨none, none⟩) p [.flowKey true p] rest) := rfl

theorem advance_dashes (tags : TagTable) (p : Place) (rest : List PlacedToken) :
    advance tags (.node true true) ⟨.dash, p⟩ rest =
      .ok (.give (.listStart ⟨none, none⟩) p [.dashEntry] (⟨.dash, p⟩ :: rest)) := rfl

theorem advance_blockList (tags : TagTable) (dashes : Bool) (p : Place) (rest : List PlacedToken) :
    advance tags (.node true dashes) ⟨.blockList, p⟩ rest =
      .ok (.give (.listStart ⟨none, none⟩) p [.listEntry p] rest) := by
  cases dashes <;> rfl

theorem advance_blockTable (tags : TagTable) (dashes : Bool) (p : Place) (rest : List PlacedToken) :
    advance tags (.node true dashes) ⟨.blockTable, p⟩ rest =
      .ok (.give (.tableStart ⟨none, none⟩) p [.tableKey p] rest) := by
  cases dashes <;> rfl

theorem head_nodeTokens (underKey : Bool) (d : Datum) :
    ∃ t ts, nodeTokens underKey d = t :: ts ∧ t ∉ [.key, .value, .blockEnd] ∧
      (underKey = false → t ≠ .dash) := by
  unfold nodeTokens
  split
  · exact ⟨_, _, rfl, by simp, by simp⟩
  · exact ⟨_, _, rfl, by simp, by simp⟩
  · cases underKey
    · exact ⟨_, _, rfl, by simp, by simp⟩
    · exact ⟨_, _, rfl, by simp, by simp⟩
  · exact ⟨_, _, rfl, by simp, by simp⟩
  · exact ⟨_, _, rfl, by simp, by simp⟩
  · exact ⟨_, _, rfl, by simp, by simp⟩

/-- A value is taken by the goal for a node. -/
def GivesNode (d : Datum) : Prop :=
  ∀ (tags : TagTable) (underKey : Bool) (ps : List PlacedToken) (next : PlacedToken),
    ps.map (·.token) = nodeTokens underKey d → (underKey = true → next.token ≠ .dash) →
      Gives tags (.node true underKey) ps (contents d) (3 * ps.length) next

theorem nodeBehind_nodeTokens {place : Place} {stops : List Token} {wanted : Goal}
    {goals : List Goal} {underKey : Bool} {d : Datum} (rest : List PlacedToken)
    (hps : ps.map (·.token) = nodeTokens underKey d)
    (hstops : ∀ t ∈ stops, t ∈ [Token.key, .value, .blockEnd] ∨ (underKey = false ∧ t = .dash)) :
    nodeBehind place stops wanted goals (ps ++ rest) =
      .ok (.go (wanted :: goals) (ps ++ rest)) := by
  obtain ⟨t, ts, hnode, hmem, hdash⟩ := head_nodeTokens underKey d
  rw [hnode] at hps
  obtain ⟨q, qs, rfl, rfl, -⟩ := List.map_eq_cons_iff.1 hps
  have hnot : q.token ∉ stops := by
    intro hstop
    rcases hstops _ hstop with h | ⟨hkey, h⟩
    · exact hmem h
    · exact hdash hkey h
  have hcontains : stops.contains q.token = false := by simpa using hnot
  rw [List.cons_append, nodeBehind, hcontains]
  rfl

/-! ### Lists and tables -/

theorem gives_listEntries {ds : List Datum} (h : ∀ d ∈ ds, GivesNode d) (start : Place)
    (hps : ps.map (·.token) = itemTokens ds ++ [.blockEnd]) :
    Gives tags (.listEntry start) ps (itemContents ds ++ [.listEnd]) (3 * ps.length) next := by
  induction ds generalizing ps with
  | nil =>
      obtain ⟨place, rfl⟩ := exists_of_map_token_eq_singleton hps
      rw [itemContents]
      exact Gives.mono (gives_last (fun rest => rfl) rfl) (by simp)
  | cons d ds ih =>
      rw [itemTokens, List.cons_append, List.append_assoc] at hps
      obtain ⟨⟨token, place⟩, more, rfl, rfl, hmore⟩ := List.map_eq_cons_iff.1 hps
      obtain ⟨qs, rs, rfl, hqs, hrs⟩ := List.map_eq_append_iff.1 hmore
      have hnode (q : PlacedToken) := h d (by simp) tags false qs q hqs (by simp)
      have hrest := ih (fun e he => h e (by simp [he])) hrs
      rw [itemContents, List.append_assoc]
      have hitem : Gives tags (.listEntry start) (⟨.dash, place⟩ :: (qs ++ rs))
          (contents d ++ (itemContents ds ++ [.listEnd])) (1 + 3 * qs.length + 3 * rs.length)
          next := by
        refine gives_cons ?_ (fun q _ => hnode q) hrest
        intro rest
        exact nodeBehind_nodeTokens _ hqs (by simp)
      apply hitem.mono
      simp
      omega

theorem gives_dashEntry {d : Datum} {place : Place} (h : GivesNode d)
    (hps : ps.map (·.token) = nodeTokens false d) (hrest : Gives tags .dashEntry qs cs bound next) :
    Gives tags .dashEntry (⟨.dash, place⟩ :: (ps ++ qs)) (contents d ++ cs)
      (1 + 3 * ps.length + bound) next := by
  refine gives_cons ?_ (fun q _ => h tags false ps q hps (by simp)) hrest
  intro rest
  exact nodeBehind_nodeTokens _ hps (by simp)

theorem gives_dashEntries {ds : List Datum} (h : ∀ d ∈ ds, GivesNode d)
    (hps : ps.map (·.token) = itemTokens ds) (hnext : next.token ≠ .dash) :
    Gives tags .dashEntry ps (itemContents ds ++ [.listEnd]) (3 * ps.length + 1) next := by
  induction ds generalizing ps with
  | nil =>
      obtain rfl : ps = [] := by simpa [itemTokens] using hps
      obtain ⟨token, place⟩ := next
      have hend : ∀ rest, advance tags .dashEntry ⟨token, place⟩ rest =
          .ok (.give .listEnd place [] (⟨token, place⟩ :: rest)) := by
        intro rest
        cases token with
        | dash => exact absurd rfl hnext
        | _ => rfl
      rw [itemContents]
      exact gives_end hend rfl
  | cons d ds ih =>
      rw [itemTokens] at hps
      obtain ⟨⟨token, place⟩, more, rfl, rfl, hmore⟩ := List.map_eq_cons_iff.1 hps
      obtain ⟨qs, rs, rfl, hqs, hrs⟩ := List.map_eq_append_iff.1 hmore
      have hrest := ih (fun e he => h e (by simp [he])) hrs
      rw [itemContents, List.append_assoc]
      apply (gives_dashEntry (h d (by simp)) hqs hrest).mono
      simp
      omega

theorem gives_tableEntry {key : String} {d : Datum} {start place place' place'' : Place}
    (hnode : ∀ q ∈ (qs ++ [next]).head?,
      Gives tags (.node true true) ps (contents d) (3 * ps.length) q)
    (hps : ps.map (·.token) = nodeTokens true d)
    (hrest : Gives tags (.tableKey start) qs cs bound next) :
    Gives tags (.tableKey start)
      (⟨.key, place⟩ :: ⟨.scalar .plain key, place'⟩ :: ⟨.value, place''⟩ :: (ps ++ qs))
      (.scalar none .plain key :: (contents d ++ cs)) (3 + 3 * ps.length + bound) next := by
  have hvalue : Gives tags (.tableValue start) (⟨.value, place''⟩ :: (ps ++ qs))
      (contents d ++ cs) (1 + 3 * ps.length + bound) next := by
    refine gives_cons ?_ hnode hrest
    intro rest
    exact nodeBehind_nodeTokens _ hps (by simp)
  have hkey (q : PlacedToken) : Gives tags (.node true true) [⟨.scalar .plain key, place'⟩]
      [.scalar none .plain key] 1 q :=
    gives_last (fun rest => advance_scalar tags true true .plain key place' rest) rfl
  have hentry := @gives_cons tags (.tableKey start) _ _ ⟨.key, place⟩ next _ _ _ _ _ _
    (fun rest => rfl) (fun q _ => hkey q) hvalue
  apply hentry.mono
  omega

theorem ne_dash_of_entryTokens {es : List (String × Datum)}
    (hps : ps.map (·.token) = entryTokens es ++ [.blockEnd]) :
    ∀ q ∈ (ps ++ [next]).head?, q.token ≠ .dash := by
  intro q hq
  cases es with
  | nil =>
      obtain ⟨place, rfl⟩ := exists_of_map_token_eq_singleton hps
      obtain rfl : _ = q := by simpa using hq
      simp
  | cons e es =>
      rw [entryTokens, entryToken_eq] at hps
      obtain ⟨r, rs, rfl, hr, -⟩ := List.map_eq_cons_iff.1 hps
      obtain rfl : r = q := by simpa using hq
      simp [hr]

theorem gives_tableKeys {es : List (String × Datum)} (h : ∀ e ∈ es, GivesNode e.2) (start : Place)
    (hps : ps.map (·.token) = entryTokens es ++ [.blockEnd]) :
    Gives tags (.tableKey start) ps (entryContents es ++ [.tableEnd]) (3 * ps.length) next := by
  induction es generalizing ps with
  | nil =>
      obtain ⟨place, rfl⟩ := exists_of_map_token_eq_singleton hps
      rw [entryContents]
      exact Gives.mono (gives_last (fun rest => rfl) rfl) (by simp)
  | cons e es ih =>
      obtain ⟨key, d⟩ := e
      rw [entryTokens, entryToken, List.append_assoc, List.cons_append, List.cons_append,
        List.cons_append] at hps
      obtain ⟨⟨token, place⟩, more, rfl, rfl, hmore⟩ := List.map_eq_cons_iff.1 hps
      obtain ⟨⟨token, place'⟩, more, rfl, rfl, hmore'⟩ := List.map_eq_cons_iff.1 hmore
      obtain ⟨⟨token, place''⟩, more, rfl, rfl, hvalue⟩ := List.map_eq_cons_iff.1 hmore'
      obtain ⟨qs, rs, rfl, hqs, hrs⟩ := List.map_eq_append_iff.1 hvalue
      have hlater := ih (fun f hf => h f (by simp [hf])) hrs
      have hnode : ∀ q ∈ (rs ++ [next]).head?,
          Gives tags (.node true true) qs (contents d) (3 * qs.length) q := by
        intro q hq
        apply h (key, d) (by simp) tags true qs q hqs
        intro _
        exact ne_dash_of_entryTokens hrs q hq
      rw [entryContents, List.cons_append, List.append_assoc]
      apply (gives_tableEntry hnode hqs hlater).mono
      simp
      omega

/-! ### Values -/

theorem givesNode_scalar {d : Datum} {style : Style} {text : String}
    (htokens : ∀ underKey, nodeTokens underKey d = [.scalar style text])
    (hcontents : contents d = [.scalar none style text]) : GivesNode d := by
  intro tags underKey ps next hps _
  rw [htokens] at hps
  obtain ⟨place, rfl⟩ := exists_of_map_token_eq_singleton hps
  rw [hcontents]
  have hlast : Gives tags (.node true underKey) [⟨.scalar style text, place⟩]
      [.scalar none style text] 1 next :=
    gives_last (fun rest => advance_scalar tags true underKey style text place rest) rfl
  exact hlast.mono (by simp)

theorem givesNode_word {d : Datum} (hd : IsWord d) : GivesNode d := by
  obtain ⟨word, -, hatom, -, -, htokens⟩ := hd.written
  apply givesNode_scalar htokens
  cases hd <;> simp_all [contents, Datum.count]

theorem givesNode_nil : GivesNode (.list []) := by
  intro tags underKey ps next hps _
  rw [nodeTokens] at hps
  obtain ⟨⟨token, place⟩, more, rfl, rfl, hmore⟩ := List.map_eq_cons_iff.1 hps
  obtain ⟨place', rfl⟩ := exists_of_map_token_eq_singleton hmore
  have hend : Gives tags (.flowEntry true place) [⟨.flowListEnd, place'⟩] [.listEnd] 1 next :=
    gives_last (fun rest => rfl) rfl
  rw [contents, itemContents]
  exact Gives.mono (gives_event (fun rest => advance_flowList tags true underKey place _) rfl hend)
    (by simp)

theorem givesNode_emptyTable : GivesNode (.table []) := by
  intro tags underKey ps next hps _
  rw [nodeTokens] at hps
  obtain ⟨⟨token, place⟩, more, rfl, rfl, hmore⟩ := List.map_eq_cons_iff.1 hps
  obtain ⟨place', rfl⟩ := exists_of_map_token_eq_singleton hmore
  have hend : Gives tags (.flowKey true place) [⟨.flowTableEnd, place'⟩] [.tableEnd] 1 next :=
    gives_last (fun rest => rfl) rfl
  rw [contents, entryContents]
  exact Gives.mono (gives_event (fun rest => advance_flowTable tags true underKey place _) rfl hend)
    (by simp)

theorem givesNode_list {d : Datum} {ds : List Datum} (h : ∀ e ∈ d :: ds, GivesNode e) :
    GivesNode (.list (d :: ds)) := by
  intro tags underKey ps next hps hnext
  rw [contents]
  cases underKey with
  | true =>
      have hitems : ps.map (·.token) = .dash :: (nodeTokens false d ++ itemTokens ds) := by
        simpa [nodeTokens] using hps
      obtain ⟨⟨token, place⟩, more, rfl, rfl, hmore⟩ := List.map_eq_cons_iff.1 hitems
      obtain ⟨qs, rs, rfl, hqs, hrs⟩ := List.map_eq_append_iff.1 hmore
      have hentries : Gives tags .dashEntry rs (itemContents ds ++ [.listEnd]) (3 * rs.length + 1)
          next := gives_dashEntries (fun e he => h e (by simp [he])) hrs (hnext rfl)
      have hall := @gives_dashEntry tags next qs rs _ _ d place (h d (by simp)) hqs hentries
      rw [itemContents, List.append_assoc]
      apply Gives.mono (gives_event
        (fun rest => advance_dashes tags place (qs ++ rs ++ next :: rest)) rfl hall)
      simp
      omega
  | false =>
      have hitems : ps.map (·.token) = .blockList :: (itemTokens (d :: ds) ++ [.blockEnd]) := by
        simpa [nodeTokens, itemTokens] using hps
      obtain ⟨⟨token, place⟩, more, rfl, rfl, hmore⟩ := List.map_eq_cons_iff.1 hitems
      have hall := @gives_listEntries tags next more (d :: ds) h place hmore
      apply Gives.mono (gives_event
        (fun rest => advance_blockList tags false place (more ++ next :: rest)) rfl hall)
      simp
      omega

theorem givesNode_table {e : String × Datum} {es : List (String × Datum)}
    (h : ∀ f ∈ e :: es, GivesNode f.2) : GivesNode (.table (e :: es)) := by
  intro tags underKey ps next hps _
  have hentries : ps.map (·.token) = .blockTable :: (entryTokens (e :: es) ++ [.blockEnd]) := by
    simpa [nodeTokens, entryTokens] using hps
  obtain ⟨⟨token, place⟩, more, rfl, rfl, hmore⟩ := List.map_eq_cons_iff.1 hentries
  have hall := @gives_tableKeys tags next more (e :: es) h place hmore
  rw [contents]
  apply Gives.mono (gives_event
    (fun rest => advance_blockTable tags underKey place (more ++ next :: rest)) rfl hall)
  simp
  omega

theorem Regular.givesNode {d : Datum} (h : Regular d) : GivesNode d := by
  induction h with
  | null => exact givesNode_word .null
  | flag b => exact givesNode_word (.flag b)
  | count n => exact givesNode_word (.count n)
  | text s => exact givesNode_scalar (fun _ => by rw [nodeTokens]) (by rw [contents])
  | @list ds _ ih =>
      cases ds with
      | nil => exact givesNode_nil
      | cons d ds => exact givesNode_list ih
  | @table es _ _ ih =>
      cases es with
      | nil => exact givesNode_emptyTable
      | cons e es => exact givesNode_table ih

/-! ### Documents -/

theorem bindFrom_cons {event : Event} {place : Place} {fault : Option Fault} {more : Bool}
    {b : Binding} {rest : List PlacedEvent} (h : event.content? = some c) :
    bindFrom fault more b (⟨event, place⟩ :: rest) = bindFrom fault more (b.add c place) rest := by
  cases event with
  | scalar properties style text =>
      obtain ⟨anchor, tag⟩ := properties
      cases anchor with
      | none =>
          obtain rfl : Content.scalar tag style text = c := by simpa [Event.content?] using h
          rfl
      | some a => simp [Event.content?] at h
  | listStart properties =>
      obtain ⟨anchor, tag⟩ := properties
      cases anchor with
      | none =>
          obtain rfl : Content.listStart tag = c := by simpa [Event.content?] using h
          rfl
      | some a => simp [Event.content?] at h
  | tableStart properties =>
      obtain ⟨anchor, tag⟩ := properties
      cases anchor with
      | none =>
          obtain rfl : Content.tableStart tag = c := by simpa [Event.content?] using h
          rfl
      | some a => simp [Event.content?] at h
  | listEnd =>
      obtain rfl : Content.listEnd = c := by simpa [Event.content?] using h
      rfl
  | tableEnd =>
      obtain rfl : Content.tableEnd = c := by simpa [Event.content?] using h
      rfl
  | documentStart => simp [Event.content?] at h
  | documentEnd => simp [Event.content?] at h
  | streamEnd => simp [Event.content?] at h
  | reference a => simp [Event.content?] at h

theorem bindFrom_contents {es : List PlacedEvent} {cs : List Content} (fault : Option Fault)
    (more : Bool) (b : Binding) (rest : List PlacedEvent)
    (h : es.map (·.event.content?) = cs.map some) :
    ∃ xs : List PlacedContent, xs.map (·.content) = cs ∧
      bindFrom fault more b (es ++ rest) =
        bindFrom fault more
          { b with contents := xs.reverse ++ b.contents, count := b.count + xs.length } rest := by
  induction es generalizing b cs with
  | nil =>
      obtain rfl : cs = [] := by simpa using h.symm
      exact ⟨[], rfl, rfl⟩
  | cons e es ih =>
      obtain ⟨event, place⟩ := e
      obtain ⟨c, cs, rfl⟩ : ∃ c cs', cs = c :: cs' := by
        cases cs with
        | nil => simp at h
        | cons c cs => exact ⟨c, cs, rfl⟩
      simp only [List.map_cons, List.cons.injEq] at h
      obtain ⟨hevent, hes⟩ := h
      have hadd : bindFrom fault more b (⟨event, place⟩ :: (es ++ rest)) =
          bindFrom fault more (b.add c place) (es ++ rest) := bindFrom_cons hevent
      obtain ⟨xs, hxs, hbind⟩ := ih (b.add c place) hes
      refine ⟨⟨c, place⟩ :: xs, by simp [hxs], ?_⟩
      rw [List.cons_append, hadd, hbind]
      simp [Binding.add, Nat.add_assoc, Nat.add_comm 1]

theorem beginDocument_blockTable (place : Place) (rest : List PlacedToken) :
    beginDocument true (⟨.blockTable, place⟩ :: rest) =
      .ok (.give .documentStart place [.node true false, .documentEnd]
        (⟨.blockTable, place⟩ :: rest), defaultTags) := by
  simp [beginDocument, directives]

/-- The tokens of a table make up the one document of a text. -/
theorem ofTokens_of_gives {start place : Place}
    (h : Gives defaultTags (.node true false) (⟨.blockTable, start⟩ :: ps) cs
      (3 * (ps.length + 1)) ⟨.streamEnd, place⟩) :
    ∃ events : List PlacedEvent, events.map (·.event.content?) = cs.map some ∧
      EventStream.ofTokens ⟨⟨.blockTable, start⟩ :: ps ++ [⟨.streamEnd, place⟩], none⟩ =
        ⟨⟨.documentStart, start⟩ :: (events ++ [⟨.documentEnd, place⟩]), none,
          [⟨.streamEnd, place⟩]⟩ := by
  obtain ⟨events, k, hk, hevents, hleads⟩ := h
  obtain ⟨fuel, hfuel⟩ : ∃ fuel,
      stepBound (⟨.blockTable, start⟩ :: ps ++ [⟨.streamEnd, place⟩]) = fuel + 2 + k := by
    refine ⟨stepBound (⟨.blockTable, start⟩ :: ps ++ [⟨.streamEnd, place⟩]) - 2 - k, ?_⟩
    simp [stepBound]
    omega
  have hmeet := hleads [⟨.documentStart, start⟩] [.documentEnd] [] (fuel + 2)
  rw [← hfuel] at hmeet
  refine ⟨events, hevents, ?_⟩
  unfold EventStream.ofTokens
  rw [List.cons_append, beginDocument_blockTable]
  apply hmeet.trans
  simp [meet, advance, Advance.give]

/-- A written table is read as one document with its contents. -/
theorem document_of_write {e : String × Datum} {es : List (String × Datum)}
    (h : Regular (.table (e :: es))) :
    ∃ xs : List PlacedContent, Document.ofText (write (.table (e :: es))) = ⟨xs, [], none, false⟩ ∧
      xs.map (·.content) = contents (.table (e :: es)) := by
  obtain ⟨ts, htext, hts⟩ := tokens_of_write h
  obtain ⟨ps, qs, rfl, hps, hqs⟩ := List.map_eq_append_iff.1 hts
  obtain ⟨place, rfl⟩ := exists_of_map_token_eq_singleton hqs
  have htable : nodeTokens true (.table (e :: es)) = nodeTokens false (.table (e :: es)) := by
    simp [nodeTokens]
  rw [htable] at hps
  have hgives := h.givesNode defaultTags false ps ⟨.streamEnd, place⟩ hps (by simp)
  rw [nodeTokens] at hps
  obtain ⟨⟨token, start⟩, more, rfl, rfl, -⟩ := List.map_eq_cons_iff.1 hps
  obtain ⟨events, hevents, hstream⟩ := ofTokens_of_gives hgives
  obtain ⟨xs, hxs, hbind⟩ := @bindFrom_contents events _ none false .start
    [⟨.documentEnd, place⟩] hevents
  refine ⟨xs, ?_, hxs⟩
  unfold Document.ofText
  rw [htext, hstream]
  change bindFrom none false .start (⟨.documentStart, start⟩ ::
    (events ++ [⟨.documentEnd, place⟩])) = _
  rw [bindFrom, hbind]
  simp [bindFrom, Binding.finish, Binding.start]

end Yaml
end DocClaims
