/-!
The page that is used when no template is named: a plain sheet with the year as a grid. A small
script marks the cell of today.
-/

namespace WallCalendar

/-- The lines of the built-in template. -/
def defaultTemplateLines : List String :=
  ["<!DOCTYPE html>",
    "<html lang=\"en\">",
    "<head>",
    "<meta charset=\"utf-8\">",
    "<meta name=\"viewport\" content=\"width=device-width, initial-scale=1\">",
    "<title>\x7b\x7bname\x7d\x7d</title>",
    "<style>",
    "  :root \x7b",
    "    --lane-height: 1.5em;",
    "    --label-height: 1.6em;",
    "    --line: #d6d6d6;",
    "    --accent: #3b82f6;",
    "  \x7d",
    "  body \x7b",
    "    margin: 0;",
    "    padding: 1rem;",
    "    font: 13px/1.35 system-ui, -apple-system, \"Segoe UI\", sans-serif;",
    "    color: #1f2937;",
    "  \x7d",
    "  h1 \x7b",
    "    font-size: 1.4rem;",
    "    margin: 0 0 1rem;",
    "  \x7d",
    "  .year \x7b",
    "    display: grid;",
    "    grid-template-columns: repeat(7, minmax(0, 1fr));",
    "    grid-template-rows: repeat(var(--rows), auto);",
    "    border-top: 1px solid var(--line);",
    "    border-left: 1px solid var(--line);",
    "  \x7d",
    "  .day \x7b",
    "    min-height: 5em;",
    "    padding: 0.2em 0.3em 0.4em;",
    "    border-right: 1px solid var(--line);",
    "    border-bottom: 1px solid var(--line);",
    "    overflow: hidden;",
    "  \x7d",
    "  .day > time \x7b",
    "    display: block;",
    "    height: var(--label-height);",
    "    font-weight: 600;",
    "    color: #6b7280;",
    "  \x7d",
    "  .day.other-year \x7b",
    "    background: #f5f5f5;",
    "  \x7d",
    "  .day.other-year > time \x7b",
    "    color: #b0b0b0;",
    "  \x7d",
    "  .day.today \x7b",
    "    background: #eff6ff;",
    "  \x7d",
    "  .day.today > time \x7b",
    "    color: var(--accent);",
    "  \x7d",
    "  .lanes \x7b",
    "    height: calc(var(--lanes) * var(--lane-height));",
    "  \x7d",
    "  .event,",
    "  .multi \x7b",
    "    white-space: nowrap;",
    "    overflow: hidden;",
    "    text-overflow: ellipsis;",
    "  \x7d",
    "  .event \x7b",
    "    padding: 0.1em 0;",
    "  \x7d",
    "  .event > time \x7b",
    "    color: #6b7280;",
    "  \x7d",
    "  .multi \x7b",
    "    align-self: start;",
    "    z-index: 1;",
    "    height: calc(var(--lane-height) - 0.2em);",
    "    margin: calc(0.2em + var(--label-height) + var(--lane) * var(--lane-height)) 0.2em 0;",
    "    padding: 0 0.4em;",
    "    border-radius: 0.3em;",
    "    background: var(--accent);",
    "    color: #fff;",
    "    line-height: calc(var(--lane-height) - 0.2em);",
    "  \x7d",
    "  .multi.continues-before \x7b",
    "    margin-left: 0;",
    "    border-top-left-radius: 0;",
    "    border-bottom-left-radius: 0;",
    "  \x7d",
    "  .multi.continues-after \x7b",
    "    margin-right: 0;",
    "    border-top-right-radius: 0;",
    "    border-bottom-right-radius: 0;",
    "  \x7d",
    "  .multi a,",
    "  .event a \x7b",
    "    color: inherit;",
    "  \x7d",
    "  .multi img,",
    "  .event img \x7b",
    "    height: 1em;",
    "    margin-right: 0.3em;",
    "    vertical-align: -0.1em;",
    "  \x7d",
    "</style>",
    "</head>",
    "<body>",
    "<h1>\x7b\x7bname\x7d\x7d</h1>",
    "\x7b\x7bcontent\x7d\x7d",
    "<script>",
    "  (function () \x7b",
    "    var now = new Date();",
    "    var pad = function (n) \x7b return (n < 10 ? \"0\" : \"\") + n; \x7d;",
    "    var today = now.getFullYear() + \"-\" + pad(now.getMonth() + 1) + \"-\" + pad(now.getDate());",
    "    var label = document.querySelector('.day > time[datetime=\"' + today + '\"]');",
    "    if (label) \x7b",
    "      label.parentNode.classList.add(\"today\");",
    "      label.scrollIntoView(\x7b block: \"center\" \x7d);",
    "    \x7d",
    "  \x7d)();",
    "</script>",
    "</body>",
    "</html>",
    ""]

/-- The text of the built-in template. -/
def defaultTemplate : String := String.intercalate "\n" defaultTemplateLines

end WallCalendar
