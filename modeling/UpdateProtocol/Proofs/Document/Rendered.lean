import UpdateProtocol.Proofs.Document.RenderedRequest
import UpdateProtocol.Proofs.Document.RenderedResponse
import UpdateProtocol.Proofs.Document.RoundTrip

namespace UpdateProtocol

open UpdateProtocol.Markup

namespace Document

theorem angle_mem_source (d : Source.Document) : '<' ∈ d.text.toList := by
  rw [Source.Document.text, String.toList_ofList, Source.Document.body]
  cases d.root.stop <;> simp [Source.text]

theorem read_source {σ : Type} {sch : Schema σ} {d : Source.Document} {v : σ} (hfine : d.IsFine)
    (hreads : sch.ReadsAs d.root v) (item : String) {contentType : String}
    (haccepted : ContentType.accepted contentType = true) (hsize : d.text.toUTF8.size ≤ maxSize) :
    read sch item contentType d.text.toUTF8 = .ok v := by
  obtain ⟨rest, hparse⟩ := Source.Document.parse_text hfine
  refine read_toUTF8 haccepted (angle_mem_source d) hsize ?_
  rw [hparse]
  exact hreads hfine.root

theorem decode_of_renders (d : Source.Document) (hfine : d.IsFine) (contentType : String)
    (haccepted : ContentType.accepted contentType = true)
    (hsize : d.text.toUTF8.size ≤ maxSize) :
    (∀ r : Request, r.protocol = "3.0" → r.Renders d.root →
      Request.decode contentType d.text.toUTF8 = .ok r) ∧
    ∀ r : Response, r.protocol = "3.0" → r.canonical = r → r.Renders d.root →
      Response.decode contentType d.text.toUTF8 = .ok r := by
  constructor
  · intro r hprotocol hrenders
    have hread := read_source hfine (Request.readsAs_of_renders hrenders) "Request" haccepted hsize
    exact Request.decode_of_read hread hprotocol
  · intro r hprotocol hcanonical hrenders
    have hreads := Response.readsAs_of_renders hrenders
    rw [hcanonical] at hreads
    have hread := read_source hfine hreads "Response" haccepted hsize
    exact Response.decode_of_read hread hprotocol

def foreignPing : Source.Element where
  tag := { name := "ping".toList, attributes := [{ key := "r".toList, raw := "-2".toList }] }
  stop := some [' ']

def foreignEvent : Source.Element where
  tag := {
    name := "event".toList
    attributes :=
      [{ key := "eventresult".toList, raw := "1".toList },
        { key := "eventtype".toList, raw := "3".toList }] }

def foreignApp : Source.Element where
  tag := {
    name := "app".toList
    attributes :=
      [{ key := "lang".toList, quote := '\'', raw := "&#x65;n".toList },
        { gap := ['\n'], key := "appid".toList, raw := "&quot;'".toList },
        { key := "delta_okay".toList, raw := "false".toList }] }
  stop := some []
  children :=
    .element {} foreignEvent.tag foreignEvent.stop foreignEvent.children <|
      .element { asides := [(['\n'], .comment " <app/> ".toList)] } foreignPing.tag
        foreignPing.stop foreignPing.children (.done {})

def foreignRequest : Source.Document where
  front := { asides := [([], .instruction "xml version='1.0'".toList)], last := ['\n'] }
  root := {
    tag := {
      name := "request".toList
      attributes :=
        [{ key := "ismachine".toList, raw := " 1 ".toList },
          { key := "hardware_class".toList, raw := "<".toList },
          { key := "protocol".toList, raw := "3&#46;0".toList }] }
    stop := some []
    children :=
      .element {} { name := "future".toList } (some [])
          (.element { last := "a > b".toList } foreignApp.tag foreignApp.stop foreignApp.children
            (.done {})) <|
        .element {} foreignApp.tag foreignApp.stop foreignApp.children (.done {}) }

theorem foreignPing_renders : PingRequest.Renders foreignPing { lastReportDays := some (-2) } where
  fits := ⟨by decide, by decide, by decide⟩
  active := .none
  lastActiveDays := .none
  lastReportDays := .some rfl
  activeDay := .none
  reportDay := .none

theorem foreignEvent_renders : Event.Renders foreignEvent { type := ⟨3⟩, result := ⟨1⟩ } where
  fits := ⟨by decide, by decide, by decide⟩
  type := .some rfl
  result := .some rfl
  previousVersion := .none
  errorCode := .omitted

theorem spells_quotes : SpellsString "&quot;'".toList "\"'" := by
  have hquot : Reference "quot".toList '"' := .named (by decide)
  exact .reference hquot (.self (by decide))

theorem spells_en : SpellsString "&#x65;n".toList "en" := by
  have he : Numeral 16 "65".toList 'e'.toNat :=
    .more (.digit (d := 6) ⟨by decide, by decide⟩) (d := 5) ⟨by decide, by decide⟩
  exact .reference (.hexadecimal he (by decide)) (.self (by decide))

theorem spells_three : SpellsString "3&#46;0".toList "3.0" := by
  have hdot : Numeral 10 "46".toList '.'.toNat :=
    .more (.digit (d := 4) ⟨by decide, by decide⟩) (d := 6) ⟨by decide, by decide⟩
  exact .literal (by decide) (.reference (.decimal hdot (by decide)) (.self (by decide)))

def foreignAppRequest : AppRequest where
  id := "\"'"
  lang := some "en"
  ping := some { lastReportDays := some (-2) }
  events := [{ type := ⟨3⟩, result := ⟨1⟩ }]

theorem foreignApp_renders : foreignAppRequest.Renders foreignApp where
  fits := ⟨by decide, by decide, by decide⟩
  id := .some spells_quotes
  version := .none
  nextVersion := .none
  lang := .some spells_en
  client := .none
  installAge := .none
  track := .none
  fromTrack := .none
  board := .none
  deltaOk := .written rfl
  oem := .none
  oemVersion := .none
  alephVersion := .none
  machineId := .none
  bootId := .none
  ping := .cons foreignPing_renders .nil
  updateCheck := .nil
  row := ⟨[], [foreignEvent], [foreignPing], rfl, by decide, by decide⟩
  events := .cons foreignEvent_renders .nil

def foreignMessage : Request where
  protocol := "3.0"
  isMachine := true
  apps := [foreignAppRequest]

theorem foreignRequest_renders : foreignMessage.Renders foreignRequest.root where
  name := rfl
  fits := ⟨by decide, by decide, by decide⟩
  protocol := .some spells_three
  version := .none
  updaterVersion := .none
  isMachine := .written ⟨[' '], "1", [' '], by decide, by decide, .self (by decide)⟩
  sessionId := .none
  userId := .none
  installSource := .none
  testSource := .none
  requestId := .none
  os := .nil
  row := ⟨[_], [foreignApp], [], rfl, by decide, by decide⟩
  apps := .cons foreignApp_renders .nil

theorem foreignApp_isFine : foreignApp.IsFine := by
  have hping : Source.IsFine (.element { asides := [(['\n'], .comment " <app/> ".toList)] }
      foreignPing.tag foreignPing.stop foreignPing.children (.done {})) :=
    .long (.of_plain (by decide +kernel) (by decide)) (by decide) (.done .empty) (by decide)
      (.done .empty)
  have hchildren : foreignApp.children.IsFine := .short .empty (by decide) hping
  exact .long .empty (by decide) hchildren (by decide) (.done .empty)

theorem foreignRequest_isFine : foreignRequest.IsFine := by
  have hfuture : Source.IsFine (.element { last := "a > b".toList } foreignApp.tag foreignApp.stop
      foreignApp.children (.done {})) :=
    .long (.of_plain (by decide) (by decide)) foreignApp_isFine.tag foreignApp_isFine.children
      (by decide) (.done .empty)
  have hchildren : foreignRequest.root.children.IsFine :=
    .long .empty (by decide) hfuture (by decide) foreignApp_isFine
  refine ⟨.of_plain (by decide +kernel) (by decide), by decide, ?_⟩
  exact .long .empty (by decide) hchildren (by decide) (.done .empty)

def foreignUrls : Source.Element where
  tag := { name := "urls".toList }

def foreignCheck : Source.Element where
  tag := {
    name := "updatecheck".toList
    attributes := [{ key := "status".toList, raw := "noupdate".toList }] }
  stop := some []
  children :=
    .element {} foreignUrls.tag foreignUrls.stop foreignUrls.children
      (.done { asides := [([], .comment [])] })

def foreignResponse : Source.Document where
  root := {
    tag := {
      name := "response".toList
      attributes := [{ key := "protocol".toList, raw := "3&#46;0".toList }] }
    stop := some []
    children :=
      .element {} {
          name := "app".toList
          attributes :=
            [{ key := "status".toList, raw := "ok".toList },
              { key := "appid".toList, raw := "&#x65;n".toList }] } (some [])
          (.element { last := ['\n'] } foreignCheck.tag foreignCheck.stop foreignCheck.children
            (.done {})) <|
        .element {} { name := "daystart".toList } none (.done {}) (.done {}) }

def foreignAnswer : Response where
  protocol := "3.0"
  dayStart := some {}
  apps := [{ id := "en", status := .ok, updateCheck := some { status := .noUpdate } }]

theorem foreignCheck_renders : UpdateResponse.Renders foreignCheck { status := .noUpdate } where
  fits := ⟨by decide, by decide, by decide⟩
  status := .some (.self (by decide))
  urls :=
    .written ⟨⟨by decide, by decide, by decide⟩, ⟨[], [], [], rfl, by decide, by decide⟩, .nil⟩
  manifest := .nil

theorem foreignResponse_renders : foreignAnswer.Renders foreignResponse.root where
  name := rfl
  fits := ⟨by decide, by decide, by decide⟩
  protocol := .some spells_three
  server := .none
  dayStart := .cons ⟨⟨by decide, by decide, by decide⟩, .omitted⟩ .nil
  row := ⟨[], [_], [_], rfl, by decide, by decide⟩
  apps := by
    refine .cons ?_ .nil
    exact {
      fits := ⟨by decide, by decide, by decide⟩
      id := .some spells_en
      status := .written (.self (by decide))
      ping := .nil
      updateCheck := .cons foreignCheck_renders .nil
      row := ⟨[_], [], [], rfl, by decide, by decide⟩
      events := .nil }

theorem foreignResponse_isFine : foreignResponse.IsFine := by
  have hcheck : Source.IsFine (.element { last := ['\n'] } foreignCheck.tag foreignCheck.stop
      foreignCheck.children (.done {})) :=
    .long (.of_plain (by decide) (by decide)) (by decide)
      (.short .empty (by decide) (.done (.of_plain (by decide +kernel) (by decide)))) (by decide)
      (.done .empty)
  have hchildren : foreignResponse.root.children.IsFine :=
    .long .empty (by decide) hcheck (by decide) (.short .empty (by decide) (.done .empty))
  refine ⟨.empty, by decide, ?_⟩
  exact .long .empty (by decide) hchildren (by decide) (.done .empty)

theorem decode_of_renders_foreign :
    Request.decode " TEXT/xml " foreignRequest.text.toUTF8 = .ok foreignMessage ∧
      Response.decode "" foreignResponse.text.toUTF8 = .ok foreignAnswer := by
  have hrequest := decode_of_renders foreignRequest foreignRequest_isFine " TEXT/xml "
    (by decide +kernel) (by decide +kernel)
  have hresponse := decode_of_renders foreignResponse foreignResponse_isFine ""
    (by decide +kernel) (by decide +kernel)
  exact ⟨hrequest.1 foreignMessage rfl foreignRequest_renders,
    hresponse.2 foreignAnswer rfl (by decide) foreignResponse_renders⟩

end Document

end UpdateProtocol
