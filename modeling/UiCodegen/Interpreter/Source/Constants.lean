import UiCodegen.Interpreter.Source.Template

/-!
# Constants of the interpreter

The part of the C interpreter that looks up constants by name: in the generated table, which is
sorted by hash, and in a table that the program fills at run time.
-/

namespace UiCodegen.Interpreter.Source

def constants : List Bytes := lines r#"
typedef struct <%
 uint32_t hash;
 char *name;
 int value;
%> user_enum_entry_t;

static user_enum_entry_t g_user_enum_table[MAX_USER_ENUMS];
static int g_user_enum_count = 0;

static uint32_t djb2(const char *s)
<%
 uint32_t h = 5381u;
 unsigned char c;
 while ((c = (unsigned char)*s++) != 0) <%
  h = h * 33u + c;
 %>
 return h;
%>

bool lvgl_json_add_user_enum_mapping(const char *name, int value)
<%
 int i;
 uint32_t h;
 if (!name || !*name) <%
  return false;
 %>
 h = djb2(name);
 for (i = 0; i < g_user_enum_count; i++) <%
  if (g_user_enum_table[i].hash == h && strcmp(g_user_enum_table[i].name, name) == 0) <%
   g_user_enum_table[i].value = value;
   return true;
  %>
 %>
 if (g_user_enum_count >= MAX_USER_ENUMS) <%
  LVGL_JSON_LOG_WARN("lvgl_json: user enum table full, dropping '%s'", name);
  return false;
 %>
 g_user_enum_table[g_user_enum_count].name = dup_str(name);
 if (!g_user_enum_table[g_user_enum_count].name) <%
  return false;
 %>
 g_user_enum_table[g_user_enum_count].hash = h;
 g_user_enum_table[g_user_enum_count].value = value;
 g_user_enum_count++;
 return true;
%>

void lvgl_json_clear_user_enum_mappings(void)
<%
 int i;
 for (i = 0; i < g_user_enum_count; i++) <%
  free(g_user_enum_table[i].name);
  g_user_enum_table[i].name = NULL;
 %>
 g_user_enum_count = 0;
%>

static bool lookup_enum_name(const char *name, int *out)
<%
 uint32_t h = djb2(name);
 int i;
 int lo = 0;
 int hi = GENERATED_ENUM_COUNT;

 for (i = 0; i < g_user_enum_count; i++) <%
  if (g_user_enum_table[i].hash == h && strcmp(g_user_enum_table[i].name, name) == 0) <%
   *out = g_user_enum_table[i].value;
   return true;
  %>
 %>

 /* First entry whose hash is >= h. */
 while (lo < hi) <%
  int mid = lo + (hi - lo) / 2;
  if (g_generated_enum_table[mid].hash < h) <%
   lo = mid + 1;
  %> else <%
   hi = mid;
  %>
 %>
 for (i = lo; i < GENERATED_ENUM_COUNT && g_generated_enum_table[i].hash == h; i++) <%
  if (strcmp(g_generated_enum_table[i].name, name) == 0) <%
   *out = g_generated_enum_table[i].value;
   return true;
  %>
 %>
 return false;
%>

/* unmarshal_enum_value accepts a number, a member name or names OR-ed with '|'.
 * out is written only on success. */
static bool unmarshal_enum_value(cJSON *node, const char *expected_type, int *out)
<%
 char part[LVGL_JSON_MAX_NAME];
 const char *s;
 int acc = 0;

 if (cJSON_IsNumber(node)) <%
  *out = node->valueint;
  return true;
 %>
 if (!cJSON_IsString(node) || !node->valuestring) <%
  return false;
 %>
 s = node->valuestring;
 while (*s) <%
  const char *end = strchr(s, '|');
  size_t n = end ? (size_t)(end - s) : strlen(s);
  int v;
  while (n > 0 && *s == ' ') <%
   s++;
   n--;
  %>
  while (n > 0 && s[n - 1] == ' ') <%
   n--;
  %>
  if (n == 0 || n >= sizeof(part)) <%
   return false;
  %>
  memcpy(part, s, n);
  part[n] = '\0';
  if (!lookup_enum_name(part, &v)) <%
   LVGL_JSON_LOG_WARN("lvgl_json: unknown %s value '%s'", expected_type ? expected_type : "enum", part);
   return false;
  %>
  acc |= v;
  if (!end) <%
   break;
  %>
  s = end + 1;
 %>
 *out = acc;
 return true;
%>"#

end UiCodegen.Interpreter.Source
